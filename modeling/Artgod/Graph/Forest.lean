/-
# Values along parents

A node names its parent, and its value follows from the value of the parent.  `visit` computes it depth first,
with a memo and the stack of the nodes it came from; `Value` is a derivation from a root down to the node.  A
list resolves exactly when every node of it has a value (`resolve_ok`, `resolve_of_values`).
-/
import Mathlib.Data.List.Nodup
import Mathlib.Data.List.Perm.Subperm

namespace Artgod.Forest

/-! ## 1. The search -/

/-- How a node is named, whom it hangs under, how its value follows, and the errors of the search. -/
structure Rule (α κ β ε : Type) where
  id : α → κ
  parent : α → Option κ
  value : α → Option β → Except ε β
  cycle : α → ε
  missing : α → κ → ε

variable {α κ β ε : Type} [DecidableEq κ]

/-- The map from ids to nodes; of two nodes with one id the later is found. -/
def nodeById (R : Rule α κ β ε) (nodes : List α) (k : κ) : Option α :=
  nodes.reverse.find? (fun a => R.id a = k)

/-- The value of a node, and the memo after it.  `fuel` bounds the length of the stack. -/
def visit (R : Rule α κ β ε) (nodes : List α) :
    Nat → List κ → List (κ × β) → α → Except ε (β × List (κ × β))
  | 0, _, _, a => .error (R.cycle a)
  | fuel + 1, visiting, memo, a =>
    match memo.lookup (R.id a) with
    | some b => .ok (b, memo)
    | none =>
      if R.id a ∈ visiting then .error (R.cycle a)
      else
        match R.parent a with
        | none =>
          match R.value a none with
          | .error e => .error e
          | .ok b => .ok (b, (R.id a, b) :: memo)
        | some k =>
          match nodeById R nodes k with
          | none => .error (R.missing a k)
          | some p =>
            match visit R nodes fuel (R.id a :: visiting) memo p with
            | .error e => .error e
            | .ok (pb, memo) =>
              match R.value a (some pb) with
              | .error e => .error e
              | .ok b => .ok (b, (R.id a, b) :: memo)

/-- Visit the nodes in turn. -/
def visitAll (R : Rule α κ β ε) (nodes : List α) (fuel : Nat) :
    List α → List (κ × β) → Except ε (List (κ × β))
  | [], memo => .ok memo
  | a :: rest, memo =>
    match visit R nodes fuel [] memo a with
    | .error e => .error e
    | .ok (_, memo) => visitAll R nodes fuel rest memo

/-- The values of all nodes. -/
def resolve (R : Rule α κ β ε) (nodes : List α) : Except ε (List (κ × β)) :=
  visitAll R nodes (nodes.length + 1) nodes []

/-! ## 2. Derivations -/

/-- The value of a node at its depth. -/
inductive Value (R : Rule α κ β ε) (nodes : List α) : Nat → α → β → Prop
  | root {a : α} {b : β} : R.parent a = none → R.value a none = .ok b → Value R nodes 0 a b
  | child {a p : α} {k : κ} {b pb : β} {n : Nat} : R.parent a = some k → p ∈ nodes → R.id p = k →
      Value R nodes n p pb → R.value a (some pb) = .ok b → Value R nodes (n + 1) a b

variable {R : Rule α κ β ε} {nodes : List α}

variable {b : β} {n : Nat} {a : α} {memo : List (κ × β)} {k : κ}

omit [DecidableEq κ] in
theorem Value.unique (hnodup : (nodes.map R.id).Nodup) {m : Nat} {b' : β}
    (h : Value R nodes n a b) (h' : Value R nodes m a b') : m = n ∧ b' = b := by
  induction h generalizing m b' with
  | root hparent hvalue =>
    cases h' with
    | root _ hvalue' =>
      rw [hvalue, Except.ok.injEq] at hvalue'
      exact ⟨rfl, hvalue'.symm⟩
    | child hparent' => rw [hparent] at hparent'; cases hparent'
  | @child a p k b pb n hparent hmem hid _ hvalue ih =>
    cases h' with
    | root hparent' => rw [hparent] at hparent'; cases hparent'
    | @child _ p' k' _ pb' n' hparent' hmem' hid' hp' hvalue' =>
      rw [hparent, Option.some.injEq] at hparent'
      obtain rfl : p = p' :=
        List.inj_on_of_nodup_map hnodup hmem hmem' (hid.trans (hparent'.trans hid'.symm))
      obtain ⟨rfl, rfl⟩ := ih hp'
      rw [hvalue, Except.ok.injEq] at hvalue'
      exact ⟨rfl, hvalue'.symm⟩

omit [DecidableEq κ] in
theorem Value.sim {nodes' : List α} {S : α → α → Prop}
    (hparent : ∀ a a', S a a' → R.parent a' = R.parent a)
    (hvalue : ∀ a a', S a a' → R.value a' = R.value a)
    (hup : ∀ a a' p k m b pb, S a a' → R.parent a = some k → p ∈ nodes → R.id p = k →
      Value R nodes m p pb → Value R nodes (m + 1) a b → ∃ p' ∈ nodes', R.id p' = k ∧ S p p')
    {a' : α} (h : Value R nodes n a b) (hsim : S a a') :
    Value R nodes' n a' b := by
  induction h generalizing a' with
  | root hroot hb =>
    exact .root ((hparent _ _ hsim).trans hroot) (hvalue _ _ hsim ▸ hb)
  | child hk hmem hid hp hb ih =>
    obtain ⟨p', hmem', hid', hsim'⟩ := hup _ _ _ _ _ _ _ hsim hk hmem hid hp (.child hk hmem hid hp hb)
    exact .child ((hparent _ _ hsim).trans hk) hmem' hid' (ih hsim') (hvalue _ _ hsim ▸ hb)

omit [DecidableEq κ] in
theorem Value.chain (hnodup : (nodes.map R.id).Nodup) (h : Value R nodes n a b) (ha : a ∈ nodes) :
    ∃ l : List α, l.length = n + 1 ∧ l.Nodup ∧ l ⊆ nodes ∧ ∀ c ∈ l, ∃ m y, m ≤ n ∧ Value R nodes m c y := by
  induction h with
  | @root a b hparent hvalue =>
    refine ⟨[a], rfl, List.nodup_singleton a, by simpa using ha, fun c hc => ?_⟩
    rw [List.mem_singleton.mp hc]
    exact ⟨0, b, Nat.le_refl 0, .root hparent hvalue⟩
  | @child a p k b pb n hparent hmem hid hp hvalue ih =>
    obtain ⟨l, hlen, hl, hsub, hdepth⟩ := ih hmem
    have ha' := Value.child hparent hmem hid hp hvalue
    refine ⟨a :: l, by simp [hlen], List.nodup_cons.mpr ⟨fun hal => ?_, hl⟩,
      List.cons_subset.mpr ⟨ha, hsub⟩, fun c hc => ?_⟩
    · -- the node itself is one level deeper than any of them
      obtain ⟨m, y, hle, hm⟩ := hdepth a hal
      have := (ha'.unique hnodup hm).1
      omega
    · rcases List.mem_cons.mp hc with rfl | hc
      · exact ⟨n + 1, b, Nat.le_refl _, ha'⟩
      · obtain ⟨m, y, hle, hm⟩ := hdepth c hc
        exact ⟨m, y, Nat.le_succ_of_le hle, hm⟩

omit [DecidableEq κ] in
theorem Value.depth_lt (hnodup : (nodes.map R.id).Nodup)
    (h : Value R nodes n a b) (ha : a ∈ nodes) : n < nodes.length := by
  obtain ⟨l, hlen, hl, hsub, -⟩ := h.chain hnodup ha
  have hle := (List.subperm_of_subset hl hsub).length_le
  omega

omit [DecidableEq κ] in
theorem exists_depth (hnodup : (nodes.map R.id).Nodup) (h : ∀ a ∈ nodes, ∃ n b, Value R nodes n a b) :
    ∃ depth : κ → Nat, ∀ a ∈ nodes, ∀ k, R.parent a = some k →
      ∃ p ∈ nodes, R.id p = k ∧ depth k < depth (R.id a) := by
  let At (k : κ) (n : Nat) : Prop := ∃ a ∈ nodes, R.id a = k ∧ ∃ b, Value R nodes n a b
  have hdepth {k : κ} {n : Nat} (hn : At k n) : Classical.epsilon (At k) = n := by
    obtain ⟨a, ha, hid, b, hv⟩ := hn
    obtain ⟨a', ha', hid', b', hv'⟩ := Classical.epsilon_spec (p := At k) ⟨n, a, ha, hid, b, hv⟩
    obtain rfl := List.inj_on_of_nodup_map hnodup ha ha' (hid.trans hid'.symm)
    exact (hv.unique hnodup hv').1
  refine ⟨fun k => Classical.epsilon (At k), fun a ha k hk => ?_⟩
  obtain ⟨n, b, hv⟩ := h a ha
  cases hv with
  | root hparent => rw [hk] at hparent; cases hparent
  | @child _ p k' _ pb m hparent hp hid hpv hb =>
    obtain rfl : k = k' := Option.some.inj (hk.symm.trans hparent)
    refine ⟨p, hp, hid, ?_⟩
    show Classical.epsilon (At k) < Classical.epsilon (At (R.id a))
    rw [hdepth ⟨p, hp, hid, pb, hpv⟩, hdepth ⟨a, ha, rfl, b, .child hk hp hid hpv hb⟩]
    exact Nat.lt_succ_self m

/-! ## 3. The search finds the derivations -/

theorem nodeById_eq_some (hnodup : (nodes.map R.id).Nodup) {p : α} :
    nodeById R nodes k = some p ↔ p ∈ nodes ∧ R.id p = k := by
  constructor
  · intro h
    have hmem := List.mem_of_find?_eq_some h
    have hid := List.find?_some h
    exact ⟨List.mem_reverse.mp hmem, of_decide_eq_true hid⟩
  · rintro ⟨hmem, rfl⟩
    cases h : nodeById R nodes (R.id p) with
    | none =>
      have hno := List.find?_eq_none.mp h p (List.mem_reverse.mpr hmem)
      simp at hno
    | some q =>
      have hq := List.mem_reverse.mp (List.mem_of_find?_eq_some h)
      have hfound := List.find?_some h
      have hid : R.id q = R.id p := of_decide_eq_true hfound
      rw [List.inj_on_of_nodup_map hnodup hq hmem hid]

/-- Every value of the memo is derived. -/
def Sound (R : Rule α κ β ε) (nodes : List α) (memo : List (κ × β)) : Prop :=
  ∀ k b, memo.lookup k = some b → ∃ a ∈ nodes, R.id a = k ∧ ∃ n, Value R nodes n a b

/-- The memo keeps what it knows. -/
def Extends (memo memo' : List (κ × β)) : Prop :=
  ∀ k b, memo.lookup k = some b → memo'.lookup k = some b

theorem lookup_cons {k' : κ} :
    ((k', b) :: memo).lookup k = if k = k' then some b else memo.lookup k := by
  rw [List.lookup_cons]
  by_cases h : k = k'
  · simp [h]
  · simp [h, beq_eq_false_iff_ne.mpr h]

theorem Sound.insert (h : Sound R nodes memo)
    (ha : a ∈ nodes) (hv : Value R nodes n a b) : Sound R nodes ((R.id a, b) :: memo) := by
  intro k x hx
  rw [lookup_cons] at hx
  split at hx
  · next hk =>
    rw [Option.some.injEq] at hx
    exact ⟨a, ha, hk.symm, n, hx ▸ hv⟩
  · exact h k x hx

theorem Extends.insert (h : memo.lookup k = none) : Extends memo ((k, b) :: memo) := by
  intro k' x hx
  rw [lookup_cons, if_neg]
  · exact hx
  · rintro rfl
    rw [h] at hx
    cases hx

theorem visit_sound (hnodup : (nodes.map R.id).Nodup) :
    ∀ {fuel : Nat} {visiting : List κ} {memo memo' : List (κ × β)} {a : α} {b : β}, a ∈ nodes →
      Sound R nodes memo → visit R nodes fuel visiting memo a = .ok (b, memo') →
      (∃ n, Value R nodes n a b) ∧ Sound R nodes memo' ∧ memo'.lookup (R.id a) = some b ∧ Extends memo memo'
  | 0, _, _, _, _, _, _, _, h => by cases h
  | fuel + 1, visiting, memo, memo', a, b, ha, hsound, h => by
    rw [visit] at h
    split at h
    · next b' hb' =>
      cases h
      obtain ⟨a', ha', hid, n, hv⟩ := hsound _ _ hb'
      obtain rfl := List.inj_on_of_nodup_map hnodup ha ha' hid.symm
      exact ⟨⟨n, hv⟩, hsound, hb', fun _ _ hx => hx⟩
    · next hnone =>
      split at h
      · cases h
      split at h
      · next hparent =>
        split at h
        · cases h
        next b' hb' =>
        cases h
        have hv : Value R nodes 0 a b := .root hparent hb'
        exact ⟨⟨0, hv⟩, hsound.insert ha hv, List.lookup_cons_self, Extends.insert hnone⟩
      · next k hparent =>
        split at h
        · cases h
        next p hp =>
        obtain ⟨hmem, hid⟩ := (nodeById_eq_some hnodup).mp hp
        split at h
        · cases h
        next pb memo₁ hvisit =>
        obtain ⟨⟨n, hpv⟩, hsound₁, -, hext⟩ := visit_sound hnodup hmem hsound hvisit
        split at h
        · cases h
        next b' hb' =>
        cases h
        have hv := Value.child hparent hmem hid hpv hb'
        refine ⟨⟨n + 1, hv⟩, hsound₁.insert ha hv, List.lookup_cons_self, ?_⟩
        intro k' x hx
        rw [lookup_cons, if_neg]
        · exact hext k' x hx
        · rintro rfl
          rw [hnone] at hx
          cases hx

theorem visit_complete (hnodup : (nodes.map R.id).Nodup) (hv : Value R nodes n a b) (ha : a ∈ nodes) :
    ∀ {fuel : Nat} {visiting : List κ} {memo : List (κ × β)}, Sound R nodes memo → n < fuel →
      (∀ c ∈ nodes, R.id c ∈ visiting → ∀ m y, Value R nodes m c y → n < m) →
      ∃ memo', visit R nodes fuel visiting memo a = .ok (b, memo') := by
  induction hv with
  | @root a b hparent hvalue =>
    intro fuel visiting memo hsound hfuel hbelow
    obtain ⟨fuel, rfl⟩ := Nat.exists_eq_add_of_lt hfuel
    simp only [visit, hparent, hvalue]
    split
    · next b' hb' =>
      obtain ⟨a', ha', hid, m, hm⟩ := hsound _ _ hb'
      obtain rfl := List.inj_on_of_nodup_map hnodup ha ha' hid.symm
      rw [((Value.root hparent hvalue).unique hnodup hm).2]
      exact ⟨_, rfl⟩
    · rw [if_neg]
      · exact ⟨_, rfl⟩
      · intro hmem
        exact absurd (hbelow a ha hmem 0 b (.root hparent hvalue)) (Nat.lt_irrefl 0)
  | @child a p k b pb n hparent hmem hid hpv hvalue ih =>
    intro fuel visiting memo hsound hfuel hbelow
    have hv := Value.child hparent hmem hid hpv hvalue
    obtain ⟨fuel, rfl⟩ : ∃ f, fuel = f + 1 := ⟨fuel - 1, by omega⟩
    simp only [visit, hparent]
    split
    · next b' hb' =>
      obtain ⟨a', ha', hid', m, hm⟩ := hsound _ _ hb'
      obtain rfl := List.inj_on_of_nodup_map hnodup ha ha' hid'.symm
      rw [(hv.unique hnodup hm).2]
      exact ⟨_, rfl⟩
    · rw [if_neg]
      · -- the parent is one level up, so it is above the node and above the stack
        have hstack : ∀ c ∈ nodes, R.id c ∈ R.id a :: visiting → ∀ m y, Value R nodes m c y → n < m := by
          intro c hc hcid m y hm
          rcases List.mem_cons.mp hcid with hcid | hcid
          · obtain rfl := List.inj_on_of_nodup_map hnodup hc ha hcid
            rw [(hv.unique hnodup hm).1]
            exact Nat.lt_succ_self n
          · exact Nat.lt_of_succ_lt (hbelow c hc hcid m y hm)
        obtain ⟨memo', hvisit⟩ := ih hmem hsound (Nat.lt_of_succ_lt_succ hfuel) hstack
        simp only [(nodeById_eq_some hnodup).mpr ⟨hmem, hid⟩, hvisit, hvalue]
        exact ⟨_, rfl⟩
      · intro hvisiting
        exact absurd (hbelow a ha hvisiting (n + 1) b hv) (Nat.lt_irrefl _)

theorem visitAll_sound (hnodup : (nodes.map R.id).Nodup) {fuel : Nat} :
    ∀ {rest : List α} {memo memo' : List (κ × β)}, rest ⊆ nodes → Sound R nodes memo →
      visitAll R nodes fuel rest memo = .ok memo' → Sound R nodes memo' ∧ Extends memo memo' ∧
        ∀ a ∈ rest, ∃ n b, Value R nodes n a b ∧ memo'.lookup (R.id a) = some b
  | [], memo, memo', _, hsound, h => by
    cases h
    exact ⟨hsound, fun _ _ hx => hx, by simp⟩
  | a :: rest, memo, memo', hsub, hsound, h => by
    rw [visitAll] at h
    split at h
    · cases h
    next b memo₁ hvisit =>
    obtain ⟨ha, hrest⟩ := List.cons_subset.mp hsub
    obtain ⟨⟨n, hv⟩, hsound₁, hlookup, hext₁⟩ := visit_sound hnodup ha hsound hvisit
    obtain ⟨hsound', hext, hall⟩ := visitAll_sound hnodup hrest hsound₁ h
    refine ⟨hsound', fun k x hx => hext k x (hext₁ k x hx), fun c hc => ?_⟩
    rcases List.mem_cons.mp hc with rfl | hc
    · exact ⟨n, b, hv, hext _ _ hlookup⟩
    · exact hall c hc

theorem visitAll_complete (hnodup : (nodes.map R.id).Nodup) {fuel : Nat}
    (hfuel : nodes.length ≤ fuel) :
    ∀ {rest : List α} {memo : List (κ × β)}, rest ⊆ nodes → Sound R nodes memo →
      (∀ a ∈ rest, ∃ n b, Value R nodes n a b) → ∃ memo', visitAll R nodes fuel rest memo = .ok memo'
  | [], memo, _, _, _ => ⟨memo, rfl⟩
  | a :: rest, memo, hsub, hsound, hvalues => by
    obtain ⟨ha, hrest⟩ := List.cons_subset.mp hsub
    obtain ⟨n, b, hv⟩ := hvalues a List.mem_cons_self
    have hdepth := hv.depth_lt hnodup ha
    obtain ⟨memo₁, hvisit⟩ := visit_complete hnodup hv ha hsound (Nat.lt_of_lt_of_le hdepth hfuel)
      (fun c hc hcid => absurd hcid List.not_mem_nil)
    rw [visitAll, hvisit]
    exact visitAll_complete hnodup hfuel hrest (visit_sound hnodup ha hsound hvisit).2.1
      (fun c hc => hvalues c (List.mem_cons_of_mem _ hc))

/-- **A list that resolves has a value for every node, and finds it.** -/
theorem resolve_ok (hnodup : (nodes.map R.id).Nodup) (h : resolve R nodes = .ok memo) :
    ∀ a ∈ nodes, ∃ n b, Value R nodes n a b ∧ memo.lookup (R.id a) = some b :=
  (visitAll_sound hnodup (List.Subset.refl _) (fun _ _ hx => by cases hx) h).2.2

theorem resolve_of_values (hnodup : (nodes.map R.id).Nodup)
    (h : ∀ a ∈ nodes, ∃ n b, Value R nodes n a b) : ∃ memo, resolve R nodes = .ok memo :=
  visitAll_complete hnodup (Nat.le_succ _) (List.Subset.refl _) (fun _ _ hx => by cases hx) h

theorem visit_fuel : ∀ {fuel : Nat} {visiting : List κ} {memo : List (κ × β)} {a : α}, a ∈ nodes →
    visiting.Nodup → visiting ⊆ nodes.map R.id → nodes.length < fuel + visiting.length →
    visit R nodes (fuel + 1) visiting memo a = visit R nodes fuel visiting memo a
  | 0, visiting, memo, a, _, hstack, hsub, hfuel => by
    have hle := (List.subperm_of_subset hstack hsub).length_le
    rw [List.length_map] at hle
    omega
  | fuel + 1, visiting, memo, a, ha, hstack, hsub, hfuel => by
    rw [visit, visit]
    split
    · rfl
    split
    · rfl
    next hfresh =>
    split
    · rfl
    split
    · rfl
    next p hp =>
    have hmem := List.mem_reverse.mp (List.mem_of_find?_eq_some hp)
    rw [visit_fuel hmem (List.nodup_cons.mpr ⟨hfresh, hstack⟩)
      (List.cons_subset.mpr ⟨List.mem_map_of_mem ha, hsub⟩)
      (by rw [List.length_cons]; omega)]

theorem visitAll_fuel {fuel : Nat} (hfuel : nodes.length < fuel) (spare : Nat) : ∀ {rest : List α}
    {memo : List (κ × β)}, rest ⊆ nodes → visitAll R nodes (fuel + spare) rest memo = visitAll R nodes fuel rest memo
  | [], _, _ => rfl
  | a :: rest, memo, hrest => by
    obtain ⟨ha, hrest⟩ := List.cons_subset.mp hrest
    have hvisit : visit R nodes (fuel + spare) [] memo a = visit R nodes fuel [] memo a := by
      induction spare with
      | zero => rfl
      | succ spare ih =>
        rw [← Nat.add_assoc, visit_fuel ha List.nodup_nil (List.nil_subset _) (by rw [List.length_nil]; omega), ih]
    rw [visitAll, visitAll, hvisit]
    split
    · rfl
    · exact visitAll_fuel hfuel spare hrest

end Artgod.Forest
