/-
# The first of each key

A list that is collected one element at a time, an element being left out when one with its key is there
already.  It holds the first element of each key, and two such lists have the same values, in whatever order,
when they hold the same value for each key (`perm_map_iff`).
-/
import Mathlib.Data.List.Nodup

namespace Store

variable {α β κ ρ ε : Type} [DecidableEq κ] {key : α → κ}

/-! ## 1. Keeping the first -/

/-- The element joins the list, unless one with its key is there. -/
def keepFirst (key : α → κ) (kept : List α) (a : α) : List α :=
  if kept.any (key · = key a) then kept else kept ++ [a]

variable {kept l : List α} {k : κ} {a : α} {seen : List κ}

theorem find?_keepFirst : (keepFirst key kept a).find? (key · = k) =
      (kept.find? (key · = k)).or (if key a = k then some a else none) := by
  unfold keepFirst
  split
  · next hany =>
    by_cases ha : key a = k
    · have hsome : (kept.find? (key · = k)).isSome := by
        rw [List.find?_isSome]
        subst ha
        exact List.any_eq_true.mp hany
      obtain ⟨b, hb⟩ := Option.isSome_iff_exists.mp hsome
      rw [hb]
      rfl
    · rw [if_neg ha, Option.or_none]
  · rw [List.find?_append, List.find?_singleton]
    simp only [decide_eq_true_iff]

theorem find?_foldl_keepFirst : (l.foldl (keepFirst key) kept).find? (key · = k) =
      (kept.find? (key · = k)).or (l.find? (key · = k)) := by
  induction l generalizing kept with
  | nil => rw [List.foldl_nil, List.find?_nil, Option.or_none]
  | cons a rest ih =>
    rw [List.foldl_cons, ih, find?_keepFirst, Option.or_assoc, List.find?_cons]
    by_cases ha : key a = k
    · rw [if_pos ha, decide_eq_true ha]
      rfl
    · rw [if_neg ha, decide_eq_false ha, Option.none_or]

theorem nodup_keepFirst (h : (kept.map key).Nodup) (a : α) : ((keepFirst key kept a).map key).Nodup := by
  unfold keepFirst
  split
  · exact h
  next hany =>
  rw [List.map_append, List.map_singleton, List.nodup_append]
  refine ⟨h, List.nodup_singleton _, fun k hk k' hk' heq => hany ?_⟩
  obtain ⟨b, hb, rfl⟩ := List.mem_map.mp hk
  rw [List.any_eq_true]
  exact ⟨b, hb, decide_eq_true (heq.trans (List.mem_singleton.mp hk'))⟩

theorem nodup_foldl_keepFirst (h : (kept.map key).Nodup) (l : List α) :
    ((l.foldl (keepFirst key) kept).map key).Nodup := by
  induction l generalizing kept with
  | nil => exact h
  | cons a rest ih => exact ih (nodup_keepFirst h a)

theorem nodup_firsts (l : List α) : ((l.foldl (keepFirst key) []).map key).Nodup := by
  refine nodup_foldl_keepFirst ?_ l
  exact List.nodup_nil

theorem key_of_find? (h : l.find? (key · = k) = some a) : key a = k := by
  have hfound := List.find?_some h
  exact of_decide_eq_true hfound

theorem find?_eq_some_iff_of_nodup (h : (l.map key).Nodup) :
    l.find? (key · = k) = some a ↔ a ∈ l ∧ key a = k := by
  constructor
  · intro hfind
    exact ⟨List.mem_of_find?_eq_some hfind, key_of_find? hfind⟩
  rintro ⟨hmem, rfl⟩
  obtain ⟨b, hb⟩ : ∃ b, l.find? (key · = key a) = some b :=
    Option.isSome_iff_exists.mp (List.find?_isSome.mpr ⟨a, hmem, decide_eq_true rfl⟩)
  rw [hb, List.inj_on_of_nodup_map h (List.mem_of_find?_eq_some hb) hmem (key_of_find? hb)]

/-- **Two lists with one element for each key have the same values exactly when they hold the same value for
each key,** where the value tells the key. -/
theorem perm_map_iff {l' : List α} {v : α → β} {g : β → κ} (hg : ∀ a, g (v a) = key a)
    (h : (l.map key).Nodup) (h' : (l'.map key).Nodup) :
    (l.map v).Perm (l'.map v) ↔ ∀ k, (l.find? (key · = k)).map v = (l'.find? (key · = k)).map v := by
  have hvalue : ∀ {l : List α}, (l.map key).Nodup → ∀ x,
      x ∈ l.map v ↔ (l.find? (key · = g x)).map v = some x := by
    intro l h x
    rw [List.mem_map, Option.map_eq_some_iff]
    refine exists_congr fun a => ?_
    rw [find?_eq_some_iff_of_nodup h, ← hg a]
    exact ⟨fun ⟨hmem, hx⟩ => ⟨⟨hmem, by rw [hx]⟩, hx⟩, fun ⟨⟨hmem, _⟩, hx⟩ => ⟨hmem, hx⟩⟩
  have hnodup : ∀ {l : List α}, (l.map key).Nodup → (l.map v).Nodup := by
    intro l h
    have hkeys : l.map key = (l.map v).map g := by
      rw [List.map_map]
      exact List.map_congr_left fun a _ => (hg a).symm
    rw [hkeys] at h
    exact List.Nodup.of_map g h
  rw [List.perm_ext_iff_of_nodup (hnodup h) (hnodup h')]
  constructor
  · intro hsame k
    refine Option.ext fun x => ?_
    by_cases hk : g x = k
    · subst hk
      rw [← hvalue h, ← hvalue h']
      exact hsame x
    have hnone : ∀ l : List α, (l.find? (key · = k)).map v ≠ some x := by
      intro l hx
      obtain ⟨a, ha, rfl⟩ := Option.map_eq_some_iff.mp hx
      exact hk ((hg a).trans (key_of_find? ha))
    exact iff_of_false (hnone l) (hnone l')
  · intro hsame x
    rw [hvalue h, hvalue h', hsame]

theorem find?_filterMap_congr {f g : ρ → Option β} {p : β → Bool} {l : List ρ}
    (h : ∀ r ∈ l, (f r).filter p = (g r).filter p) : (l.filterMap f).find? p = (l.filterMap g).find? p := by
  have hcons : ∀ (f : ρ → Option β) r rest,
      ((r :: rest).filterMap f).find? p = ((f r).filter p).or ((rest.filterMap f).find? p) := by
    intro f r rest
    rw [List.filterMap_cons]
    cases f r with
    | none => rfl
    | some b =>
      rw [List.find?_cons, Option.filter_some]
      cases p b with
      | true => rfl
      | false => rfl
  induction l with
  | nil => rfl
  | cons r rest ih =>
    rw [hcons, hcons, h r List.mem_cons_self, ih fun r hr => h r (List.mem_cons_of_mem _ hr)]

/-! ## 2. Leaving out what was seen -/

/-- The elements whose key was not seen before. -/
def dropSeen (key : α → κ) : List κ → List α → List α
  | _, [] => []
  | seen, a :: rest => if key a ∈ seen then dropSeen key seen rest else a :: dropSeen key (key a :: seen) rest

theorem dropSeen_sublist (seen : List κ) (l : List α) : (dropSeen key seen l).Sublist l := by
  induction l generalizing seen with
  | nil => exact List.Sublist.refl _
  | cons a rest ih =>
    unfold dropSeen
    split
    · exact (ih seen).cons a
    · exact (ih _).cons_cons a

theorem mem_map_dropSeen : k ∈ (dropSeen key seen l).map key ↔ k ∈ l.map key ∧ k ∉ seen := by
  induction l generalizing seen with
  | nil => simp [dropSeen]
  | cons a rest ih =>
    unfold dropSeen
    split
    · next hseen =>
      rw [ih, List.map_cons, List.mem_cons]
      refine ⟨fun h => ⟨.inr h.1, h.2⟩, fun h => ⟨h.1.resolve_left ?_, h.2⟩⟩
      rintro rfl
      exact h.2 hseen
    · next hseen =>
      rw [List.map_cons, List.map_cons, List.mem_cons, List.mem_cons, ih, List.mem_cons, not_or]
      by_cases hk : k = key a
      · subst hk
        exact iff_of_true (.inl rfl) ⟨.inl rfl, hseen⟩
      · simp only [hk, false_or, not_false_eq_true, true_and]

theorem nodup_map_dropSeen (seen : List κ) (l : List α) : ((dropSeen key seen l).map key).Nodup := by
  induction l generalizing seen with
  | nil => exact List.nodup_nil
  | cons a rest ih =>
    unfold dropSeen
    split
    · exact ih seen
    · refine List.nodup_cons.mpr ⟨fun hmem => ?_, ih _⟩
      exact (mem_map_dropSeen.mp hmem).2 List.mem_cons_self

theorem mem_dropSeen (hkey : ∀ a ∈ l, ∀ b ∈ l, key a = key b → a = b) :
    a ∈ dropSeen key seen l ↔ a ∈ l ∧ key a ∉ seen := by
  have hsub : ∀ b ∈ dropSeen key seen l, b ∈ l := fun b hb => (dropSeen_sublist seen l).subset hb
  constructor
  · intro hmem
    exact ⟨hsub a hmem, (mem_map_dropSeen.mp (List.mem_map_of_mem hmem)).2⟩
  rintro ⟨hmem, hseen⟩
  obtain ⟨b, hb, hba⟩ := List.mem_map.mp (mem_map_dropSeen.mpr ⟨List.mem_map_of_mem hmem, hseen⟩)
  rw [← hkey b (hsub b hb) a hmem hba]
  exact hb

theorem dropSeen_of_nodup (hnodup : (l.map key).Nodup) (hseen : ∀ a ∈ l, key a ∉ seen) :
    dropSeen key seen l = l := by
  induction l generalizing seen with
  | nil => rfl
  | cons a rest ih =>
    obtain ⟨hnot, hrest⟩ := List.nodup_cons.mp hnodup
    unfold dropSeen
    rw [if_neg (hseen a List.mem_cons_self)]
    congr 1
    refine ih hrest fun b hb hmem => ?_
    rcases List.mem_cons.mp hmem with hk | hmem
    · exact hnot (hk ▸ List.mem_map_of_mem hb)
    · exact hseen b (List.mem_cons_of_mem a hb) hmem

theorem dropSeen_append (hnodup : (l.map key).Nodup) (hseen : ∀ a ∈ l, key a ∉ seen) {rest : List α}
    (hrest : ∀ a ∈ rest, key a ∈ seen ∨ key a ∈ l.map key) : dropSeen key seen (l ++ rest) = l := by
  induction l generalizing seen with
  | nil =>
    refine List.eq_nil_iff_forall_not_mem.mpr fun a ha => ?_
    have hkey := mem_map_dropSeen.mp (List.mem_map_of_mem ha)
    exact hkey.2 ((hrest a ((dropSeen_sublist seen rest).subset ha)).resolve_right List.not_mem_nil)
  | cons a l ih =>
    obtain ⟨hfresh, hl⟩ := List.nodup_cons.mp hnodup
    rw [List.cons_append, dropSeen, if_neg (hseen a List.mem_cons_self), ih hl fun b hb => ?_]
    · intro b hb
      rcases hrest b hb with h | h
      · exact .inl (List.mem_cons_of_mem _ h)
      · rcases List.mem_cons.mp h with h | h
        · exact .inl (h ▸ List.mem_cons_self)
        · exact .inr h
    · rw [List.mem_cons, not_or]
      exact ⟨fun heq => hfresh (heq ▸ List.mem_map_of_mem hb), hseen b (List.mem_cons_of_mem _ hb)⟩

/-! ## 3. Reading what is kept -/

/-- What was read, if it was. -/
def readValue : Except ε (Option α) → Option α
  | .ok value => value
  | .error _ => none

/-- One element is read and kept. -/
def keepRead (key : α → κ) (read : ρ → Except ε (Option α)) (kept : List α) (r : ρ) : Except ε (List α) := do
  match ← read r with
  | some a => return keepFirst key kept a
  | none => return kept

theorem collect_ok {read : ρ → Except ε (Option α)} {l : List ρ} (h : ∀ r ∈ l, ∃ value, read r = .ok value)
    (kept : List α) :
    l.foldlM (keepRead key read) kept =
      .ok ((l.filterMap fun r => readValue (read r)).foldl (keepFirst key) kept) := by
  induction l generalizing kept with
  | nil => rfl
  | cons r rest ih =>
    obtain ⟨value, hvalue⟩ := h r List.mem_cons_self
    have hrest := ih fun r hr => h r (List.mem_cons_of_mem _ hr)
    rw [List.foldlM_cons, keepRead, hvalue, List.filterMap_cons, hvalue]
    cases value with
    | none => exact hrest kept
    | some a => exact hrest (keepFirst key kept a)

theorem collect_error {read : ρ → Except ε (Option α)} {l : List ρ} (h : ∃ r ∈ l, ∃ error, read r = .error error)
    (kept : List α) : ∃ error, l.foldlM (keepRead key read) kept = .error error := by
  induction l generalizing kept with
  | nil =>
    obtain ⟨r, hr, -⟩ := h
    exact absurd hr List.not_mem_nil
  | cons r rest ih =>
    rw [List.foldlM_cons, keepRead]
    cases hread : read r with
    | error error => exact ⟨error, rfl⟩
    | ok value =>
      have hrest : ∃ r ∈ rest, ∃ error, read r = .error error := by
        obtain ⟨r', hr', error, herror⟩ := h
        rcases List.mem_cons.mp hr' with rfl | hr'
        · rw [hread] at herror
          cases herror
        · exact ⟨r', hr', error, herror⟩
      cases value with
      | none => exact ih hrest kept
      | some a => exact ih hrest (keepFirst key kept a)

end Store
