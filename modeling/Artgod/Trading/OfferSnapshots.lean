/-
# Collection offer snapshots

`CollectionOfferSnapshotService` over `OpenSeaCollectionOfferSource`.  Each collection has at most one refresh
loop, which reads the pages of one fetch after the other and stores the offers when it is complete; a call that
finds one running leaves a pending request and awaits the loop's promise.  Every suspension is an event of its
own, and loops are kept under their promises.  `stop` drops the pending requests: a call that waited for one is
answered by the fetch that was running (`CutShort`).
-/
import Mathlib.Data.Rat.Floor
import Mathlib.Logic.Function.Basic
import Artgod.Js.Value
import Artgod.Machine.Runs

namespace Artgod.Trading

open Function (update_self update_of_ne)

/-! ## 1. The paginated fetch -/

/-- `CollectionOfferSnapshotMetrics`, without the prices. -/
structure CollectionOfferSnapshotMetrics where
  durationMs : Int
  pageCount : Nat
  offerCount : Nat
  complete : Bool
  finalCursor : Option String

structure CollectionOfferSourceResult where
  offers : List Js.Value
  metrics : CollectionOfferSnapshotMetrics

/-- A page that was read: the cursor it was asked for with, and the answer. -/
structure FetchPage where
  cursor : Option String
  response : Js.Value

/-- `asArray(response?.offers)`. -/
def responseOffers : Js.Value → List Js.Value
  | .object fields => ((Js.field fields "offers").array?).getD []
  | _ => []

/-- The cursor of the next page: a string, and not the empty one. -/
def responseNext : Js.Value → Option String
  | .object fields => (Js.field fields "next").string?.filter (· ≠ "")
  | _ => none

/-- The variables of one `getAllOffers`; `pages` is what it has read. -/
structure OfferFetch where
  startedAt : Int
  cursor : Option String
  seenCursors : List String
  allOffers : List Js.Value
  pageCount : Nat
  pages : List FetchPage

def OfferFetch.start (now : Int) : OfferFetch := ⟨now, none, [], [], 0, []⟩

def OfferFetch.buildMetrics (fetch : OfferFetch) (now : Int) (snapshotComplete : Bool)
    (snapshotFinalCursor : Option String) : CollectionOfferSnapshotMetrics :=
  ⟨now - fetch.startedAt, fetch.pageCount, fetch.allOffers.length, snapshotComplete, snapshotFinalCursor⟩

/-- The fetch with a page added. -/
def OfferFetch.received (fetch : OfferFetch) (response : Js.Value) : OfferFetch :=
  { fetch with
    allOffers := fetch.allOffers ++ responseOffers response
    pageCount := fetch.pageCount + 1
    pages := fetch.pages ++ [⟨fetch.cursor, response⟩] }

/-- The fetch that asks for the page `next`. -/
def OfferFetch.advance (fetch : OfferFetch) (next : String) : OfferFetch :=
  { fetch with seenCursors := next :: fetch.seenCursors, cursor := some next }

/-- One turn of the loop of `getAllOffers`, from the answer on: another page is asked for, or the fetch
has its result.  A cursor that was seen before ends the fetch as incomplete. -/
def OfferFetch.page (fetch : OfferFetch) (response : Js.Value) (now : Int) :
    OfferFetch ⊕ CollectionOfferSourceResult :=
  match responseNext response with
  | none =>
    .inr ⟨(fetch.received response).allOffers, (fetch.received response).buildMetrics now true fetch.cursor⟩
  | some next =>
    if next ∈ fetch.seenCursors then
      .inr ⟨(fetch.received response).allOffers,
        (fetch.received response).buildMetrics now false (some next)⟩
    else .inl ((fetch.received response).advance next)

/-! ## 2. What a complete fetch is -/

/-- The pages read so far, each asked for with the cursor that the one before it named, and the cursor of
the next one.  No cursor is asked for twice. -/
inductive PagesRead : List FetchPage → Option String → Prop
  | start : PagesRead [] none
  | next {pages : List FetchPage} {cursor : Option String} {response : Js.Value} {next : String}
      (before : PagesRead pages cursor) (named : responseNext response = some next)
      (unseen : some next ∉ (pages ++ [FetchPage.mk cursor response]).map FetchPage.cursor) :
      PagesRead (pages ++ [⟨cursor, response⟩]) (some next)

/-- The pages from the first one to one that names no other, and all their offers in order. -/
def CompletePagination (pages : List FetchPage) (offers : List Js.Value) : Prop :=
  (∃ before cursor response, PagesRead before cursor ∧ pages = before ++ [⟨cursor, response⟩] ∧
    responseNext response = none) ∧
  offers = pages.flatMap fun page => responseOffers page.response

/-- What the variables of a running fetch say about the pages it has read. -/
structure OfferFetch.Reading (fetch : OfferFetch) : Prop where
  read : PagesRead fetch.pages fetch.cursor
  seen : ∀ c, some c ∈ fetch.pages.map FetchPage.cursor ∨ some c = fetch.cursor → c ∈ fetch.seenCursors
  offers : fetch.allOffers = fetch.pages.flatMap fun page => responseOffers page.response

theorem OfferFetch.Reading.start (now : Int) : (OfferFetch.start now).Reading := by
  refine ⟨PagesRead.start, ?_, rfl⟩
  rintro c (h | h)
  · cases h
  · cases h

variable {fetch : OfferFetch}

theorem OfferFetch.received_offers (h : fetch.Reading) (response : Js.Value) :
    (fetch.received response).allOffers =
      (fetch.received response).pages.flatMap fun page => responseOffers page.response := by
  simp only [OfferFetch.received, List.flatMap_append, List.flatMap_cons, List.flatMap_nil,
    List.append_nil, h.offers]

variable {response : Js.Value} {now : Int}

theorem OfferFetch.Reading.more {fetch' : OfferFetch}
    (h : fetch.Reading) (hpage : fetch.page response now = .inl fetch') : fetch'.Reading := by
  unfold OfferFetch.page at hpage
  split at hpage
  · cases hpage
  rename_i next hnext
  split at hpage
  · cases hpage
  rename_i hunseen
  cases hpage
  refine ⟨?_, ?_, OfferFetch.received_offers h response⟩
  · refine PagesRead.next h.read hnext ?_
    intro hmem
    rw [List.map_append, List.mem_append] at hmem
    refine hunseen (h.seen next ?_)
    rcases hmem with hmem | hmem
    · exact .inl hmem
    · exact .inr (by simpa using hmem)
  · intro c hc
    have hcases : (some c ∈ fetch.pages.map FetchPage.cursor ∨ some c = fetch.cursor) ∨ c = next := by
      simpa [OfferFetch.received, OfferFetch.advance, or_assoc] using hc
    rcases hcases with hold | rfl
    · exact List.mem_cons_of_mem _ (h.seen c hold)
    · exact List.mem_cons_self

theorem OfferFetch.Reading.done {result : CollectionOfferSourceResult} (h : fetch.Reading)
    (hpage : fetch.page response now = .inr result) (hcomplete : result.metrics.complete = true) :
    CompletePagination (fetch.received response).pages result.offers := by
  unfold OfferFetch.page at hpage
  split at hpage
  · rename_i hnext
    cases hpage
    exact ⟨⟨fetch.pages, fetch.cursor, response, h.read, rfl, hnext⟩, OfferFetch.received_offers h response⟩
  split at hpage
  · cases hpage
    cases hcomplete
  · cases hpage

/-! ## 3. The service -/

structure CollectionOfferSnapshot where
  collectionSlug : String
  offers : List Js.Value
  refreshedAt : Int
  metrics : CollectionOfferSnapshotMetrics

structure PendingRefreshRequest where
  reason : String
  respectTtl : Bool

structure CollectionRefreshState where
  refreshing : Bool
  pendingRequest : Option PendingRefreshRequest
  inFlightPromise : Option Nat
  failureCount : Nat
  nextEligibleRefreshAt : Option Int

/-- The arguments of the constructor that the freshness of a snapshot depends on. -/
structure SnapshotServiceOptions where
  refreshTtlMs : Int
  maxTtlMs : Option Int
  durationMultiplier : Option ℚ

def SnapshotServiceOptions.refreshMaxTtlMs (options : SnapshotServiceOptions) : Int :=
  max options.refreshTtlMs (options.maxTtlMs.getD options.refreshTtlMs)

def SnapshotServiceOptions.refreshDurationMultiplier (options : SnapshotServiceOptions) : ℚ :=
  (options.durationMultiplier.filter (0 < ·)).getD 1

/-- A running refresh loop: the fetch it is in, and the step that fetch was started in. -/
structure RefreshLoop where
  slug : String
  reason : String
  fetch : OfferFetch
  startedTick : Nat

/-- `COLLECTION_OFFER_REFRESH_OUTCOME`, as far as it resolves a call. -/
inductive RefreshOutcome
  | stopped
  | unwatched
  | freshSkipped
  | backoffSkipped
  | refreshed
  deriving DecidableEq

/-- Where a call of `refreshAndWait` stands. -/
inductive CallPhase
  /-- In `waitForFreshInFlightRefresh`, with the promise it joined. -/
  | joined (promise : Option Nat)
  /-- Behind `refreshCollection`. -/
  | waiting (promise : Option Nat)
  | resolved (outcome : RefreshOutcome)
  | rejected
  deriving DecidableEq

/-- A call of `refreshAndWait`, with the step it was made in and whether the service was running and
watched the collection then. -/
structure RefreshCall where
  slug : String
  reason : String
  respectTtl : Bool
  requestedAt : Nat
  admitted : Bool
  phase : CallPhase
  deriving DecidableEq

/-- A complete fetch: its pages, the snapshot stored from it, and the steps it was started and ended in. -/
structure CompletedFetch where
  slug : String
  pages : List FetchPage
  snapshot : CollectionOfferSnapshot
  startedTick : Nat
  finishedTick : Nat

structure SnapshotService where
  watchedCollectionSlugs : String → Bool
  snapshots : String → Option CollectionOfferSnapshot
  refreshStates : String → CollectionRefreshState
  /-- `stopped`, with the step it was set in. -/
  stoppedAt : Option Nat
  /-- The running loops, under their promises. -/
  loops : Nat → Option RefreshLoop
  /-- The promises that have settled, and whether they were fulfilled. -/
  settled : Nat → Option Bool
  nextPromise : Nat
  calls : Nat → Option RefreshCall
  nextCall : Nat
  completed : List CompletedFetch
  tick : Nat

def SnapshotService.initial (collectionSlugs : List String) : SnapshotService where
  watchedCollectionSlugs := fun slug => slug ∈ collectionSlugs
  snapshots := fun _ => none
  refreshStates := fun _ => ⟨false, none, none, 0, none⟩
  stoppedAt := none
  loops := fun _ => none
  settled := fun _ => none
  nextPromise := 0
  calls := fun _ => none
  nextCall := 0
  completed := []
  tick := 0

namespace SnapshotService

variable (options : SnapshotServiceOptions)

section

variable (s : SnapshotService)

def watchCollection (slug : String) : SnapshotService :=
  { s with watchedCollectionSlugs := Function.update s.watchedCollectionSlugs slug true }

def unwatchCollection (slug : String) : SnapshotService :=
  { s with watchedCollectionSlugs := Function.update s.watchedCollectionSlugs slug false }

/-- The first `stop` closes admission and clears the pending requests; a later one does nothing. -/
def stop (s : SnapshotService) : SnapshotService :=
  if s.stoppedAt.isSome then s
  else
    { s with
      stoppedAt := some s.tick
      refreshStates := fun slug => { s.refreshStates slug with pendingRequest := none } }

def getSnapshotFreshnessTtlMs (snapshot : CollectionOfferSnapshot) : Int :=
  min options.refreshMaxTtlMs
    (max options.refreshTtlMs ⌈(snapshot.metrics.durationMs : ℚ) * options.refreshDurationMultiplier⌉)

def isSnapshotFresh (slug : String) (now : Int) : Bool :=
  decide (0 < options.refreshTtlMs) && (s.snapshots slug).any fun snapshot =>
      now - snapshot.refreshedAt < getSnapshotFreshnessTtlMs options snapshot

def isRefreshBackoffActive (slug : String) (now : Int) : Bool :=
  (s.refreshStates slug).nextEligibleRefreshAt.any (now < ·)

def mergeRefreshReasons (existing incoming : String) : String :=
  if existing = "" then incoming
  else if incoming ∈ existing.splitOn " || " then existing
  else existing ++ " || " ++ incoming

def mergePendingRefreshRequest (existing : Option PendingRefreshRequest)
    (incoming : PendingRefreshRequest) : PendingRefreshRequest :=
  match existing with
  | none => incoming
  | some existing =>
    ⟨mergeRefreshReasons existing.reason incoming.reason, existing.respectTtl && incoming.respectTtl⟩

def setState (slug : String) (state : CollectionRefreshState) : SnapshotService :=
  { s with refreshStates := Function.update s.refreshStates slug state }

/-- A request that finds the collection refreshing is merged into the pending one. -/
def coalesce (slug : String) (request : PendingRefreshRequest) : SnapshotService :=
  s.setState slug { s.refreshStates slug with
      pendingRequest := some (mergePendingRefreshRequest (s.refreshStates slug).pendingRequest request) }

/-- A refresh loop is started, with its first fetch. -/
def startRefresh (slug reason : String) (now : Int) : SnapshotService :=
  { s.setState slug
      { s.refreshStates slug with refreshing := true, inFlightPromise := some s.nextPromise } with
    loops := Function.update s.loops s.nextPromise (some ⟨slug, reason, .start now, s.tick⟩)
    nextPromise := s.nextPromise + 1 }

/-- `refreshCollection` up to its `await`: the service after it, and the promise it awaits (none is a
promise that is resolved already). -/
def refreshCollection (slug reason : String) (respectTtl : Bool) (now : Int) :
    SnapshotService × Option Nat :=
  if (s.refreshStates slug).refreshing then
    (s.coalesce slug ⟨reason, respectTtl⟩, (s.refreshStates slug).inFlightPromise)
  else (s.startRefresh slug reason now, some s.nextPromise)

/-- The promise that `waitForFreshInFlightRefresh` awaits. -/
def joinedPromise (slug : String) : Option Nat :=
  if (s.refreshStates slug).refreshing then (s.refreshStates slug).inFlightPromise else none

def addCall (call : RefreshCall) : SnapshotService :=
  { s with calls := Function.update s.calls s.nextCall (some call), nextCall := s.nextCall + 1 }

def setPhase (c : Nat) (call : RefreshCall) (phase : CallPhase) : SnapshotService :=
  { s with calls := Function.update s.calls c (some { call with phase := phase }) }

/-- A call of `refreshAndWait` as it is made now, and what has become of it. -/
def newCall (slug reason : String) (respectTtl : Bool) (phase : CallPhase) :
    RefreshCall :=
  ⟨slug, reason, respectTtl, s.tick, s.stoppedAt.isNone && s.watchedCollectionSlugs slug, phase⟩

/-- `refreshAndWait` up to its first suspension. -/
def refreshAndWait (slug reason : String) (respectTtl : Bool) (now : Int) :
    SnapshotService :=
  if s.stoppedAt.isSome then s.addCall (s.newCall slug reason respectTtl (.resolved .stopped))
  else if !s.watchedCollectionSlugs slug then
    s.addCall (s.newCall slug reason respectTtl (.resolved .unwatched))
  else if respectTtl && s.isSnapshotFresh options slug now then
    s.addCall (s.newCall slug reason respectTtl (.resolved .freshSkipped))
  else if respectTtl then
    s.addCall (s.newCall slug reason respectTtl (.joined (s.joinedPromise slug)))
  else
    (s.refreshCollection slug reason respectTtl now).1.addCall
      (s.newCall slug reason respectTtl (.waiting (s.refreshCollection slug reason respectTtl now).2))

def requestRefresh (slug reason : String) (now : Int) : SnapshotService :=
  if s.stoppedAt.isSome then s
  else if !s.watchedCollectionSlugs slug then s
  else s.refreshAndWait options slug reason true now

/-- `refreshAndWait` after `waitForFreshInFlightRefresh` returned false. -/
def continueAfterWait (c : Nat) (call : RefreshCall) (now : Int) : SnapshotService :=
  if s.stoppedAt.isSome then s.setPhase c call (.resolved .stopped)
  else if call.respectTtl && s.isRefreshBackoffActive call.slug now then
    s.setPhase c call (.resolved .backoffSkipped)
  else
    (s.refreshCollection call.slug call.reason call.respectTtl now).1.setPhase c call
      (.waiting (s.refreshCollection call.slug call.reason call.respectTtl now).2)

/-- A call goes on after its `await`, once the promise it awaits has settled. -/
def resume (c : Nat) (now : Int) : SnapshotService :=
  match s.calls c with
  | none => s
  | some call =>
    match call.phase with
    | .joined none => s.continueAfterWait c call now
    | .joined (some p) =>
      match s.settled p with
      | none => s
      | some false => s.setPhase c call .rejected
      | some true =>
        if s.isSnapshotFresh options call.slug now then s.setPhase c call (.resolved .freshSkipped)
        else s.continueAfterWait c call now
    | .waiting none => s.setPhase c call (.resolved .refreshed)
    | .waiting (some p) =>
      match s.settled p with
      | none => s
      | some false => s.setPhase c call .rejected
      | some true => s.setPhase c call (.resolved .refreshed)
    | .resolved _ => s
    | .rejected => s

/-- `COLLECTION_OFFER_SNAPSHOT_FAILURE_BACKOFF_*`: the wait after the failure that made the count
`failureCount`, with `Math.random()` as an argument. -/
def failureBackoffMs (failureCount : Nat) (random : ℚ) : Int :=
  let rawBackoffMs := options.refreshTtlMs * 2 ^ min (failureCount - 1) 6
  let jitterMs := ⌊(rawBackoffMs : ℚ) * (2 / 10) * random⌋
  min options.refreshMaxTtlMs (rawBackoffMs + jitterMs)

def recordRefreshFailure (state : CollectionRefreshState) (now : Int) (random : ℚ) :
    CollectionRefreshState :=
  { state with
    failureCount := state.failureCount + 1
    nextEligibleRefreshAt := some (now + failureBackoffMs options (state.failureCount + 1) random) }

def recordRefreshSuccess (state : CollectionRefreshState) : CollectionRefreshState :=
  { state with failureCount := 0, nextEligibleRefreshAt := none }

/-- The `finally` of the loop, in one step with its `return` or `throw`. -/
def endRefresh (p : Nat) (loop : RefreshLoop) (fulfilled : Bool) : SnapshotService :=
  { s.setState loop.slug
      { s.refreshStates loop.slug with
        refreshing := false, pendingRequest := none, inFlightPromise := none } with
    loops := Function.update s.loops p none
    settled := Function.update s.settled p (some fulfilled) }

/-- A failed or partial fetch ends its loop. -/
def failRefresh (p : Nat) (loop : RefreshLoop) (now : Int) (random : ℚ) :
    SnapshotService :=
  (s.setState loop.slug (recordRefreshFailure options (s.refreshStates loop.slug) now random)).endRefresh
    p loop false

/-- The snapshot that is stored from a complete result. -/
def snapshotOf (slug : String) (result : CollectionOfferSourceResult) (now : Int) :
    CollectionOfferSnapshot :=
  ⟨slug, result.offers, now, result.metrics⟩

/-- A complete result is stored. -/
def storeSnapshot (loop : RefreshLoop) (pages : List FetchPage)
    (result : CollectionOfferSourceResult) (now : Int) : SnapshotService :=
  { s.setState loop.slug (recordRefreshSuccess (s.refreshStates loop.slug)) with
    snapshots := Function.update s.snapshots loop.slug (some (snapshotOf loop.slug result now))
    completed := s.completed ++
      [⟨loop.slug, pages, snapshotOf loop.slug result now, loop.startedTick, s.tick⟩] }

/-- The loop goes on with a fetch for the pending request. -/
def restartRefresh (p : Nat) (loop : RefreshLoop) (reason : String) (now : Int) :
    SnapshotService :=
  { s.setState loop.slug { s.refreshStates loop.slug with pendingRequest := none } with
    loops := Function.update s.loops p (some ⟨loop.slug, reason, .start now, s.tick⟩) }

/-- The end of one turn of the loop: the pending request is taken, and decides how it goes on. -/
def takePendingRequest (p : Nat) (loop : RefreshLoop) (now : Int) : SnapshotService :=
  match (s.refreshStates loop.slug).pendingRequest with
  | none => s.endRefresh p loop true
  | some pending =>
    if pending.respectTtl && s.isSnapshotFresh options loop.slug now then s.endRefresh p loop true
    else s.restartRefresh p loop pending.reason now

/-- The answer to the page that the loop of `p` awaits; none is an error that outlived the retries. -/
def receivePage (p : Nat) (reply : Option Js.Value) (now : Int) (random : ℚ) :
    SnapshotService :=
  match s.loops p with
  | none => s
  | some loop =>
    match reply with
    | none => s.failRefresh options p loop now random
    | some response =>
      match loop.fetch.page response now with
      | .inl fetch => { s with loops := Function.update s.loops p (some { loop with fetch := fetch }) }
      | .inr result =>
        if result.metrics.complete then
          (s.storeSnapshot loop (loop.fetch.received response).pages result now).takePendingRequest options
            p loop now
        else s.failRefresh options p loop now random

end

end SnapshotService

/-- What can happen to the service.  `bootstrap`, `reconcileWatchedCollections` and the poll timer are
sequences of these. -/
inductive SnapshotEvent
  | watchCollection (slug : String)
  | unwatchCollection (slug : String)
  | stop
  | refreshAndWait (slug reason : String) (respectTtl : Bool) (now : Int)
  | requestRefresh (slug reason : String) (now : Int)
  | resume (call : Nat) (now : Int)
  | page (promise : Nat) (reply : Option Js.Value) (now : Int) (random : ℚ)

section

variable (options : SnapshotServiceOptions)

def SnapshotService.handle (s : SnapshotService) : SnapshotEvent → SnapshotService
  | .watchCollection slug => s.watchCollection slug
  | .unwatchCollection slug => s.unwatchCollection slug
  | .stop => s.stop
  | .refreshAndWait slug reason respectTtl now => s.refreshAndWait options slug reason respectTtl now
  | .requestRefresh slug reason now => s.requestRefresh options slug reason now
  | .resume call now => s.resume options call now
  | .page promise reply now random => s.receivePage options promise reply now random

def SnapshotService.step (s : SnapshotService) (e : SnapshotEvent) :
    SnapshotService :=
  { s.handle options e with tick := (s.handle options e).tick + 1 }

/-- The service after the events. -/
def SnapshotService.after (collectionSlugs : List String) (es : List SnapshotEvent) : SnapshotService :=
  Machine.run (SnapshotService.step options) (.initial collectionSlugs) es

end

/-! ## 4. What a forced call is owed -/

namespace SnapshotService

section

variable (s : SnapshotService)

/-- The call was answered by a complete fetch that started with it or after it. -/
def Served (call : RefreshCall) : Prop :=
  ∃ done ∈ s.completed, done.slug = call.slug ∧ call.requestedAt ≤ done.startedTick

/-- The service was stopped while the call waited, and it was answered by the fetch that was running. -/
def CutShort (call : RefreshCall) : Prop :=
  (∃ t, s.stoppedAt = some t ∧ call.requestedAt ≤ t) ∧
    ∃ done ∈ s.completed, done.slug = call.slug ∧ call.requestedAt ≤ done.finishedTick

def Answered (call : RefreshCall) : Prop := s.Served call ∨ s.CutShort call

/-- A forced request is pending for the collection. -/
def PendingForced (slug : String) : Prop :=
  ∃ request, (s.refreshStates slug).pendingRequest = some request ∧ request.respectTtl = false

/-- What a forced call that waits for a loop can rely on: the fetch that runs is new enough, or another
one follows it, or the service was stopped since. -/
def Owed (call : RefreshCall) (loop : RefreshLoop) : Prop :=
  call.requestedAt ≤ loop.startedTick ∨ s.PendingForced call.slug ∨
    ∃ t, s.stoppedAt = some t ∧ call.requestedAt ≤ t

/-- A forced call that waits for the promise `p`. -/
structure Waits (s : SnapshotService) (call : RefreshCall) (p : Nat) : Prop where
  known : p < s.nextPromise
  owed : ∀ loop, s.loops p = some loop → loop.slug = call.slug ∧ s.Owed call loop
  answered : s.settled p = some true → s.Answered call

/-- What holds of a forced call, by where it stands. -/
def ForcedCall (call : RefreshCall) : Prop :=
  match call.phase with
  | .joined _ => False
  | .waiting promise => ∃ p, promise = some p ∧ s.Waits call p
  | .resolved _ => call.admitted = true → s.Answered call
  | .rejected => True

end

/-- The invariant of the service. -/
structure SnapshotInv (s : SnapshotService) : Prop where
  loop_known : ∀ {p loop}, s.loops p = some loop → p < s.nextPromise ∧ s.settled p = none
  loop_state : ∀ {p loop}, s.loops p = some loop →
    (s.refreshStates loop.slug).refreshing = true ∧ (s.refreshStates loop.slug).inFlightPromise = some p
  state_loop : ∀ {slug}, (s.refreshStates slug).refreshing = true →
    ∃ p loop, (s.refreshStates slug).inFlightPromise = some p ∧ s.loops p = some loop ∧ loop.slug = slug
  settled_known : ∀ {p}, s.settled p ≠ none → p < s.nextPromise
  reading : ∀ {p loop}, s.loops p = some loop → loop.fetch.Reading
  complete : ∀ done ∈ s.completed, CompletePagination done.pages done.snapshot.offers
  stored : ∀ {slug snapshot}, s.snapshots slug = some snapshot →
    ∃ done ∈ s.completed, done.slug = slug ∧ done.snapshot = snapshot
  called : ∀ {c call}, s.calls c = some call → call.requestedAt ≤ s.tick
  forced : ∀ {c call}, s.calls c = some call → call.respectTtl = false → s.ForcedCall call

variable {s : SnapshotService}

/-- **A collection has at most one refresh loop**, and so one fetch. -/
theorem SnapshotInv.one_loop (h : s.SnapshotInv) {p q : Nat}
    {loop loop' : RefreshLoop} (hp : s.loops p = some loop) (hq : s.loops q = some loop')
    (hslug : loop.slug = loop'.slug) : p = q := by
  have hfirst := (h.loop_state hp).2
  rw [hslug, (h.loop_state hq).2] at hfirst
  exact (Option.some.inj hfirst).symm

theorem SnapshotInv.initial (collectionSlugs : List String) :
    (SnapshotService.initial collectionSlugs).SnapshotInv where
  loop_known := fun h => nomatch h
  loop_state := fun h => nomatch h
  state_loop := fun h => nomatch h
  settled_known := fun h => absurd rfl h
  reading := fun h => nomatch h
  complete := fun _ h => nomatch h
  stored := fun h => nomatch h
  called := fun h => nomatch h
  forced := fun h => nomatch h

variable {s' : SnapshotService} {call : RefreshCall}

theorem Answered.mono (h : s.Answered call) (hstopped : ∀ t, s.stoppedAt = some t → s'.stoppedAt = some t)
    (hcompleted : ∀ done ∈ s.completed, done ∈ s'.completed) : s'.Answered call := by
  rcases h with ⟨done, hmem, hdone⟩ | ⟨⟨t, ht, hle⟩, done, hmem, hdone⟩
  · exact .inl ⟨done, hcompleted done hmem, hdone⟩
  · exact .inr ⟨⟨t, hstopped t ht, hle⟩, done, hcompleted done hmem, hdone⟩

theorem ForcedCall.mono (h : s.ForcedCall call) (hanswered : s.Answered call → s'.Answered call)
    (hwaits : ∀ p, s.Waits call p → s'.Waits call p) : s'.ForcedCall call := by
  unfold ForcedCall at h ⊢
  split
  · rename_i hphase
    rw [hphase] at h
    exact h
  · rename_i promise hphase
    rw [hphase] at h
    obtain ⟨p, rfl, hp⟩ := h
    exact ⟨p, rfl, hwaits p hp⟩
  · rename_i outcome hphase
    rw [hphase] at h
    exact fun hadmitted => hanswered (h hadmitted)
  · trivial

end SnapshotService

/-! ## 5. The steps keep it -/

namespace SnapshotService

variable {options : SnapshotServiceOptions} {s : SnapshotService}

variable {now : Int} {reason slug : String} {c p : Nat} {loop : RefreshLoop} {call : RefreshCall}

theorem update_some_cases {α : Type} {f : Nat → Option α} {a : Nat} {b d : α}
    (h : Function.update f a (some b) c = some d) : (c = a ∧ d = b) ∨ (c ≠ a ∧ f c = some d) := by
  rcases eq_or_ne c a with rfl | hne
  · rw [update_self] at h
    exact .inl ⟨rfl, (Option.some.inj h).symm⟩
  · rw [update_of_ne hne] at h
    exact .inr ⟨hne, h⟩

theorem SnapshotInv.putCall (h : s.SnapshotInv) {next : Nat}
    (hrequested : call.requestedAt ≤ s.tick) (hforced : call.respectTtl = false → s.ForcedCall call) :
    SnapshotInv { s with calls := Function.update s.calls c (some call), nextCall := next } :=
  { h with
    called := by
      intro d other hd
      rcases update_some_cases hd with ⟨-, rfl⟩ | ⟨-, hold⟩
      · exact hrequested
      · exact h.called hold
    forced := by
      intro d other hd
      rcases update_some_cases hd with ⟨-, rfl⟩ | ⟨-, hold⟩
      · exact fun hrespect => (hforced hrespect).mono id fun _ hp => ⟨hp.known, hp.owed, hp.answered⟩
      · exact fun hrespect => (h.forced hold hrespect).mono id fun _ hp => ⟨hp.known, hp.owed, hp.answered⟩ }

theorem SnapshotInv.addCall (h : s.SnapshotInv) (hrequested : call.requestedAt ≤ s.tick)
    (hforced : call.respectTtl = false → s.ForcedCall call) : (s.addCall call).SnapshotInv :=
  h.putCall hrequested hforced

theorem SnapshotInv.setPhase (h : s.SnapshotInv) {phase : CallPhase}
    (hrequested : call.requestedAt ≤ s.tick)
    (hforced : call.respectTtl = false → s.ForcedCall { call with phase := phase }) :
    (s.setPhase c call phase).SnapshotInv :=
  h.putCall hrequested hforced

/-- The refresh state of a collection changes in what its loop does not depend on, and a forced pending
request stays one. -/
theorem SnapshotInv.setState (h : s.SnapshotInv) {state : CollectionRefreshState}
    (hrefreshing : state.refreshing = (s.refreshStates slug).refreshing)
    (hpromise : state.inFlightPromise = (s.refreshStates slug).inFlightPromise)
    (hpending : s.PendingForced slug →
      ∃ request, state.pendingRequest = some request ∧ request.respectTtl = false) :
    (s.setState slug state).SnapshotInv := by
  have hsame : ∀ other, ((s.setState slug state).refreshStates other).refreshing =
        (s.refreshStates other).refreshing ∧
      ((s.setState slug state).refreshStates other).inFlightPromise =
        (s.refreshStates other).inFlightPromise := by
    intro other
    unfold SnapshotService.setState
    rcases eq_or_ne other slug with rfl | hne
    · simp only [update_self]
      exact ⟨hrefreshing, hpromise⟩
    · simp only [update_of_ne hne, and_self]
  have hforced : ∀ other, s.PendingForced other → (s.setState slug state).PendingForced other := by
    intro other hother
    unfold PendingForced SnapshotService.setState
    rcases eq_or_ne other slug with rfl | hne
    · simp only [update_self]
      exact hpending hother
    · simp only [update_of_ne hne]
      exact hother
  exact
  { h with
    loop_state := by
      intro p loop hloop
      rw [(hsame loop.slug).1, (hsame loop.slug).2]
      exact h.loop_state hloop
    state_loop := by
      intro other hrefreshing
      rw [(hsame other).1] at hrefreshing
      rw [(hsame other).2]
      exact h.state_loop hrefreshing
    forced := by
      intro c call hcall hrespect
      refine (h.forced hcall hrespect).mono id fun p hp => ⟨hp.known, ?_, hp.answered⟩
      intro loop hloop
      obtain ⟨hslug, howed⟩ := hp.owed loop hloop
      refine ⟨hslug, ?_⟩
      rcases howed with hstarted | hpending | hstopped
      · exact .inl hstarted
      · exact .inr (.inl (hforced _ hpending))
      · exact .inr (.inr hstopped) }

theorem mergePendingRefreshRequest_forced {existing : Option PendingRefreshRequest}
    {incoming : PendingRefreshRequest}
    (h : incoming.respectTtl = false ∨ ∃ request, existing = some request ∧ request.respectTtl = false) :
    (mergePendingRefreshRequest existing incoming).respectTtl = false := by
  rcases h with hincoming | ⟨request, rfl, hforced⟩
  · unfold mergePendingRefreshRequest
    split
    · exact hincoming
    · simp [hincoming]
  · simp [mergePendingRefreshRequest, hforced]

theorem SnapshotInv.coalesce (h : s.SnapshotInv) (slug : String) (request : PendingRefreshRequest) :
    (s.coalesce slug request).SnapshotInv :=
  h.setState rfl rfl fun hforced => ⟨_, rfl, mergePendingRefreshRequest_forced (.inr hforced)⟩

theorem pendingForced_coalesce {request : PendingRefreshRequest}
    (h : request.respectTtl = false) : (s.coalesce slug request).PendingForced slug := by
  unfold PendingForced SnapshotService.coalesce SnapshotService.setState
  simp only [update_self]
  exact ⟨_, rfl, mergePendingRefreshRequest_forced (.inl h)⟩

theorem Waits.startRefresh (h : s.Waits call p) : (s.startRefresh slug reason now).Waits call p := by
  refine ⟨Nat.lt_succ_of_lt h.known, ?_, h.answered⟩
  intro loop hloop
  have hne : p ≠ s.nextPromise := Nat.ne_of_lt h.known
  rw [show (s.startRefresh slug reason now).loops p = s.loops p from update_of_ne hne ..] at hloop
  obtain ⟨hslug, howed⟩ := h.owed loop hloop
  refine ⟨hslug, ?_⟩
  rcases howed with hstarted | ⟨pending, hpending, hforced⟩ | hstopped
  · exact .inl hstarted
  · refine .inr (.inl ⟨pending, ?_, hforced⟩)
    unfold SnapshotService.startRefresh SnapshotService.setState
    rcases eq_or_ne call.slug slug with heq | hne
    · simp only [heq, update_self]
      rw [← heq]
      exact hpending
    · simp only [update_of_ne hne]
      exact hpending
  · exact .inr (.inr hstopped)

theorem SnapshotInv.startRefresh (h : s.SnapshotInv) (reason : String) (now : Int)
    (hidle : (s.refreshStates slug).refreshing = false) :
    (s.startRefresh slug reason now).SnapshotInv := by
  have hstate : (s.startRefresh slug reason now).refreshStates slug =
      { s.refreshStates slug with refreshing := true, inFlightPromise := some s.nextPromise } :=
    update_self ..
  have hother : ∀ other, other ≠ slug →
      (s.startRefresh slug reason now).refreshStates other = s.refreshStates other :=
    fun other hne => update_of_ne hne ..
  have hnew : (s.startRefresh slug reason now).loops s.nextPromise =
      some ⟨slug, reason, .start now, s.tick⟩ := update_self ..
  have hold : ∀ p, p ≠ s.nextPromise → (s.startRefresh slug reason now).loops p = s.loops p :=
    fun p hne => update_of_ne hne ..
  -- a loop of the service is the new one, or one of another collection
  have hcases : ∀ {p loop}, (s.startRefresh slug reason now).loops p = some loop →
      (p = s.nextPromise ∧ loop = ⟨slug, reason, .start now, s.tick⟩) ∨
        (s.loops p = some loop ∧ loop.slug ≠ slug) := by
    intro p loop hloop
    rcases update_some_cases hloop with hnew' | ⟨-, hloop'⟩
    · exact .inl hnew'
    refine .inr ⟨hloop', ?_⟩
    rintro rfl
    rw [(h.loop_state hloop').1] at hidle
    cases hidle
  exact
  { h with
    loop_known := by
      intro p loop hloop
      rcases hcases hloop with ⟨rfl, -⟩ | ⟨hloop', -⟩
      · refine ⟨Nat.lt_succ_self _, ?_⟩
        by_contra hsettled
        exact Nat.lt_irrefl _ (h.settled_known hsettled)
      · exact ⟨Nat.lt_succ_of_lt (h.loop_known hloop').1, (h.loop_known hloop').2⟩
    loop_state := by
      intro p loop hloop
      rcases hcases hloop with ⟨rfl, rfl⟩ | ⟨hloop', hne⟩
      · rw [hstate]
        exact ⟨rfl, rfl⟩
      · rw [hother _ hne]
        exact h.loop_state hloop'
    state_loop := by
      intro other hrefreshing
      rcases eq_or_ne other slug with rfl | hne
      · exact ⟨s.nextPromise, _, by rw [hstate], hnew, rfl⟩
      · rw [hother _ hne] at hrefreshing ⊢
        obtain ⟨p, loop, hp, hloop, hslug⟩ := h.state_loop hrefreshing
        exact ⟨p, loop, hp, (hold p (Nat.ne_of_lt (h.loop_known hloop).1)).trans hloop, hslug⟩
    settled_known := fun hsettled => Nat.lt_succ_of_lt (h.settled_known hsettled)
    reading := by
      intro p loop hloop
      rcases hcases hloop with ⟨-, rfl⟩ | ⟨hloop', -⟩
      · exact OfferFetch.Reading.start now
      · exact h.reading hloop'
    forced := fun hcall hforced => (h.forced hcall hforced).mono id fun _ hp => hp.startRefresh }

theorem SnapshotInv.stop (h : s.SnapshotInv) : s.stop.SnapshotInv := by
  unfold SnapshotService.stop
  split
  · exact h
  rename_i hrunning
  have hopen : s.stoppedAt = none := by simpa using hrunning
  exact
  { h with
    forced := by
      intro c call hcall hforced
      have hrequested := h.called hcall
      refine (h.forced hcall hforced).mono ?_ ?_
      · intro hanswered
        exact hanswered.mono (fun t ht => by rw [hopen] at ht; cases ht) fun _ hmem => hmem
      intro p hp
      refine ⟨hp.known, ?_, ?_⟩
      · intro loop hloop
        exact ⟨(hp.owed loop hloop).1, .inr (.inr ⟨s.tick, rfl, hrequested⟩)⟩
      · intro hsettled
        exact (hp.answered hsettled).mono (fun t ht => by rw [hopen] at ht; cases ht) fun _ hmem => hmem }

theorem SnapshotInv.morePages (h : s.SnapshotInv) {fetch : OfferFetch}
    (hloop : s.loops p = some loop) (hreading : fetch.Reading) :
    SnapshotInv { s with loops := Function.update s.loops p (some { loop with fetch := fetch }) } := by
  -- every loop is an old one, up to its fetch
  have hcases : ∀ {q l}, Function.update s.loops p (some { loop with fetch := fetch }) q = some l →
      ∃ old, s.loops q = some old ∧ l.slug = old.slug ∧ l.startedTick = old.startedTick := by
    intro q l hl
    rcases update_some_cases hl with ⟨rfl, rfl⟩ | ⟨-, hold⟩
    · exact ⟨loop, hloop, rfl, rfl⟩
    · exact ⟨l, hold, rfl, rfl⟩
  exact
  { h with
    loop_known := by
      intro q l hl
      obtain ⟨old, hold, -, -⟩ := hcases hl
      exact h.loop_known hold
    loop_state := by
      intro q l hl
      obtain ⟨old, hold, hslug, -⟩ := hcases hl
      rw [hslug]
      exact h.loop_state hold
    state_loop := by
      intro slug hrefreshing
      obtain ⟨q, old, hq, hold, hslug⟩ := h.state_loop hrefreshing
      rcases eq_or_ne q p with rfl | hne
      · rw [hloop] at hold
        cases hold
        exact ⟨q, _, hq, update_self .., hslug⟩
      · exact ⟨q, old, hq, (update_of_ne hne ..).trans hold, hslug⟩
    reading := by
      intro q l hl
      rcases update_some_cases hl with ⟨-, rfl⟩ | ⟨-, hold⟩
      · exact hreading
      · exact h.reading hold
    forced := by
      intro c call hcall hforced
      refine (h.forced hcall hforced).mono id fun q hq => ⟨hq.known, ?_, hq.answered⟩
      intro l hl
      obtain ⟨old, hold, hslug, hstarted⟩ := hcases hl
      obtain ⟨hslug', howed⟩ := hq.owed old hold
      refine ⟨hslug.trans hslug', ?_⟩
      rcases howed with hle | hrest
      · exact .inl (hstarted ▸ hle)
      · exact .inr hrest }

/-- The end of a loop.  Nothing else waits for its collection, so only the calls that wait for its promise
have to be answered. -/
theorem SnapshotInv.endRefresh (h : s.SnapshotInv) {fulfilled : Bool}
    (hloop : s.loops p = some loop)
    (hanswered : ∀ {c call}, s.calls c = some call → call.respectTtl = false → s.Waits call p →
      fulfilled = true → s.Answered call) : (s.endRefresh p loop fulfilled).SnapshotInv := by
  have hstate : (s.endRefresh p loop fulfilled).refreshStates loop.slug = { s.refreshStates loop.slug with
        refreshing := false, pendingRequest := none, inFlightPromise := none } := update_self ..
  have hother : ∀ slug, slug ≠ loop.slug →
      (s.endRefresh p loop fulfilled).refreshStates slug = s.refreshStates slug :=
    fun slug hne => update_of_ne hne ..
  -- the loops that are left are those of other collections
  have hleft : ∀ {q l}, (s.endRefresh p loop fulfilled).loops q = some l →
      q ≠ p ∧ s.loops q = some l ∧ l.slug ≠ loop.slug := by
    intro q l hl
    have hne : q ≠ p := by
      rintro rfl
      rw [show (s.endRefresh q loop fulfilled).loops q = none from update_self ..] at hl
      cases hl
    rw [show (s.endRefresh p loop fulfilled).loops q = s.loops q from update_of_ne hne ..] at hl
    exact ⟨hne, hl, fun hslug => hne (h.one_loop hl hloop hslug)⟩
  have hsettled : ∀ q, q ≠ p → (s.endRefresh p loop fulfilled).settled q = s.settled q :=
    fun q hne => update_of_ne hne ..
  exact
  { h with
    loop_known := by
      intro q l hl
      obtain ⟨hne, hl', -⟩ := hleft hl
      rw [hsettled q hne]
      exact h.loop_known hl'
    loop_state := by
      intro q l hl
      obtain ⟨-, hl', hslug⟩ := hleft hl
      rw [hother _ hslug]
      exact h.loop_state hl'
    state_loop := by
      intro slug hrefreshing
      rcases eq_or_ne slug loop.slug with rfl | hne
      · rw [hstate] at hrefreshing
        cases hrefreshing
      rw [hother _ hne] at hrefreshing ⊢
      obtain ⟨q, l, hq, hl, hslug⟩ := h.state_loop hrefreshing
      refine ⟨q, l, hq, ?_, hslug⟩
      refine (update_of_ne ?_ ..).trans hl
      rintro rfl
      rw [hloop] at hl
      cases hl
      exact hne hslug.symm
    settled_known := by
      intro q hq
      rcases eq_or_ne q p with rfl | hne
      · exact (h.loop_known hloop).1
      · rw [hsettled q hne] at hq
        exact h.settled_known hq
    reading := fun hl => h.reading (hleft hl).2.1
    forced := by
      intro c call hcall hrespect
      refine (h.forced hcall hrespect).mono id fun q hq => ⟨hq.known, ?_, ?_⟩
      · intro l hl
        obtain ⟨-, hl', hne⟩ := hleft hl
        obtain ⟨hslug, howed⟩ := hq.owed l hl'
        refine ⟨hslug, ?_⟩
        rcases howed with hstarted | hpending | hstopped
        · exact .inl hstarted
        · refine .inr (.inl ?_)
          unfold PendingForced
          rw [hother _ (hslug ▸ hne)]
          exact hpending
        · exact .inr (.inr hstopped)
      · intro hq'
        rcases eq_or_ne q p with rfl | hne
        · rw [show (s.endRefresh q loop fulfilled).settled q = some fulfilled from
            update_self ..] at hq'
          exact hanswered hcall hrespect hq (Option.some.inj hq')
        · rw [hsettled q hne] at hq'
          exact hq.answered hq' }

theorem SnapshotInv.restartRefresh (h : s.SnapshotInv) (reason : String)
    (now : Int) (hloop : s.loops p = some loop) : (s.restartRefresh p loop reason now).SnapshotInv := by
  have hsame : ∀ slug, ((s.restartRefresh p loop reason now).refreshStates slug).refreshing =
        (s.refreshStates slug).refreshing ∧
      ((s.restartRefresh p loop reason now).refreshStates slug).inFlightPromise =
        (s.refreshStates slug).inFlightPromise := by
    intro slug
    unfold SnapshotService.restartRefresh SnapshotService.setState
    rcases eq_or_ne slug loop.slug with rfl | hne
    · simp only [update_self, and_self]
    · simp only [update_of_ne hne, and_self]
  have hother : ∀ slug, slug ≠ loop.slug →
      (s.restartRefresh p loop reason now).refreshStates slug = s.refreshStates slug :=
    fun slug hne => update_of_ne hne ..
  have hcases : ∀ {q l}, (s.restartRefresh p loop reason now).loops q = some l →
      (q = p ∧ l = ⟨loop.slug, reason, .start now, s.tick⟩) ∨ (q ≠ p ∧ s.loops q = some l) :=
    fun hl => update_some_cases hl
  exact
  { h with
    loop_known := by
      intro q l hl
      rcases hcases hl with ⟨rfl, -⟩ | ⟨-, hl'⟩
      · exact h.loop_known hloop
      · exact h.loop_known hl'
    loop_state := by
      intro q l hl
      rw [(hsame l.slug).1, (hsame l.slug).2]
      rcases hcases hl with ⟨rfl, rfl⟩ | ⟨-, hl'⟩
      · have hold := h.loop_state hloop
        exact hold
      · exact h.loop_state hl'
    state_loop := by
      intro slug hrefreshing
      rw [(hsame slug).1] at hrefreshing
      rw [(hsame slug).2]
      obtain ⟨q, l, hq, hl, hslug⟩ := h.state_loop hrefreshing
      rcases eq_or_ne q p with rfl | hne
      · rw [hloop] at hl
        cases hl
        exact ⟨q, _, hq, update_self .., hslug⟩
      · exact ⟨q, l, hq, (update_of_ne hne ..).trans hl, hslug⟩
    reading := by
      intro q l hl
      rcases hcases hl with ⟨-, rfl⟩ | ⟨-, hl'⟩
      · exact OfferFetch.Reading.start now
      · exact h.reading hl'
    forced := by
      intro c call hcall hrespect
      refine (h.forced hcall hrespect).mono id fun q hq => ⟨hq.known, ?_, hq.answered⟩
      intro l hl
      rcases hcases hl with ⟨rfl, rfl⟩ | ⟨hne, hl'⟩
      · exact ⟨(hq.owed loop hloop).1, .inl (h.called hcall)⟩
      obtain ⟨hslug, howed⟩ := hq.owed l hl'
      refine ⟨hslug, ?_⟩
      rcases howed with hstarted | hpending | hstopped
      · exact .inl hstarted
      · refine .inr (.inl ?_)
        unfold PendingForced
        rw [hother call.slug fun heq => hne (h.one_loop hl' hloop (hslug.trans heq))]
        exact hpending
      · exact .inr (.inr hstopped) }

theorem SnapshotInv.failRefresh (h : s.SnapshotInv) {random : ℚ}
    (hloop : s.loops p = some loop) : (s.failRefresh options p loop now random).SnapshotInv := by
  have hrecorded : (s.setState loop.slug
      (recordRefreshFailure options (s.refreshStates loop.slug) now random)).SnapshotInv :=
    h.setState rfl rfl id
  exact hrecorded.endRefresh hloop fun _ _ _ hfalse => nomatch hfalse

theorem SnapshotInv.storeSnapshot (h : s.SnapshotInv) {pages : List FetchPage}
    {result : CollectionOfferSourceResult} (hpages : CompletePagination pages result.offers) :
    (s.storeSnapshot loop pages result now).SnapshotInv := by
  have hrecorded : (s.setState loop.slug
      (recordRefreshSuccess (s.refreshStates loop.slug))).SnapshotInv := h.setState rfl rfl id
  exact
  { hrecorded with
    complete := by
      intro done hmem
      rcases List.mem_append.mp hmem with hold | hnew
      · exact h.complete done hold
      · rw [List.mem_singleton] at hnew
        subst hnew
        exact hpages
    stored := by
      intro slug snapshot hslug
      rcases eq_or_ne slug loop.slug with rfl | hne
      · refine ⟨_, List.mem_append_right _ (List.mem_singleton_self _), rfl, ?_⟩
        rw [show (s.storeSnapshot loop pages result now).snapshots loop.slug =
          some (snapshotOf loop.slug result now) from update_self ..] at hslug
        exact Option.some.inj hslug
      · rw [show (s.storeSnapshot loop pages result now).snapshots slug = s.snapshots slug from
          update_of_ne hne ..] at hslug
        obtain ⟨done, hmem, hdone⟩ := h.stored hslug
        exact ⟨done, List.mem_append_left _ hmem, hdone⟩
    forced := by
      intro c call hcall hrespect
      refine (hrecorded.forced hcall hrespect).mono ?_ fun p hp => ⟨hp.known, hp.owed, ?_⟩
      · exact fun hanswered => hanswered.mono (fun _ => id) fun _ hmem => List.mem_append_left _ hmem
      · exact fun hsettled => (hp.answered hsettled).mono (fun _ => id) fun _ hmem =>
          List.mem_append_left _ hmem }

/-- After a complete fetch the loop ends only when no forced request is pending; then every forced call
that waits for it is answered by this fetch. -/
theorem SnapshotInv.takePendingRequest (h : s.SnapshotInv) (hloop : s.loops p = some loop)
    (hdone : ∃ done ∈ s.completed, done.slug = loop.slug ∧ done.startedTick = loop.startedTick ∧
      done.finishedTick = s.tick) : (s.takePendingRequest options p loop now).SnapshotInv := by
  obtain ⟨done, hmem, hslug, hstart, hfinish⟩ := hdone
  have hend : ¬ s.PendingForced loop.slug → (s.endRefresh p loop true).SnapshotInv := by
    intro hnone
    refine h.endRefresh hloop fun {c call} hcall _ hwaits _ => ?_
    obtain ⟨hcallSlug, howed⟩ := hwaits.owed loop hloop
    rcases howed with hle | hpending | hstopped
    · exact .inl ⟨done, hmem, hslug.trans hcallSlug, hstart ▸ hle⟩
    · exact absurd (hcallSlug ▸ hpending) hnone
    · exact .inr ⟨hstopped, done, hmem, hslug.trans hcallSlug, hfinish ▸ h.called hcall⟩
  unfold SnapshotService.takePendingRequest
  split
  · rename_i hnone
    refine hend ?_
    rintro ⟨request, hrequest, -⟩
    rw [hnone] at hrequest
    cases hrequest
  · rename_i pending hpending
    split
    · rename_i hfresh
      refine hend ?_
      rintro ⟨request, hrequest, hforced⟩
      rw [hpending] at hrequest
      cases hrequest
      rw [hforced] at hfresh
      cases hfresh
    · exact h.restartRefresh pending.reason now hloop

theorem SnapshotInv.receivePage (h : s.SnapshotInv) (p : Nat) (reply : Option Js.Value) (now : Int)
    (random : ℚ) : (s.receivePage options p reply now random).SnapshotInv := by
  unfold SnapshotService.receivePage
  split
  · exact h
  rename_i loop hloop
  split
  · exact h.failRefresh hloop
  rename_i response
  split
  · rename_i fetch hpage
    exact h.morePages hloop ((h.reading hloop).more hpage)
  rename_i result hpage
  split
  · rename_i hcomplete
    have hstored : (s.storeSnapshot loop (loop.fetch.received response).pages result now).SnapshotInv :=
      h.storeSnapshot ((h.reading hloop).done hpage hcomplete)
    exact hstored.takePendingRequest hloop
      ⟨_, List.mem_append_right _ (List.mem_singleton_self _), rfl, rfl, rfl⟩
  · exact h.failRefresh hloop

theorem SnapshotInv.refreshCollection (h : s.SnapshotInv) (slug reason : String) (respectTtl : Bool)
    (now : Int) : (s.refreshCollection slug reason respectTtl now).1.SnapshotInv ∧
      (s.refreshCollection slug reason respectTtl now).1.tick = s.tick ∧
      ∀ call : RefreshCall, call.slug = slug → call.requestedAt = s.tick → respectTtl = false →
        ∃ p, (s.refreshCollection slug reason respectTtl now).2 = some p ∧
          (s.refreshCollection slug reason respectTtl now).1.Waits call p := by
  unfold SnapshotService.refreshCollection
  split
  · rename_i hrefreshing
    refine ⟨h.coalesce slug _, rfl, ?_⟩
    rintro call hslug hrequested hrespect
    obtain ⟨p, loop, hp, hloop, hloopSlug⟩ := h.state_loop hrefreshing
    refine ⟨p, hp, (h.loop_known hloop).1, ?_, ?_⟩
    · intro l hl
      rw [show (s.coalesce slug ⟨reason, respectTtl⟩).loops p = s.loops p from rfl, hloop] at hl
      cases hl
      refine ⟨hloopSlug.trans hslug.symm, .inr (.inl ?_)⟩
      rw [hslug]
      exact pendingForced_coalesce hrespect
    · intro hsettled
      rw [show (s.coalesce slug ⟨reason, respectTtl⟩).settled p = s.settled p from rfl,
        (h.loop_known hloop).2] at hsettled
      cases hsettled
  · rename_i hidle
    refine ⟨h.startRefresh reason now (by simpa using hidle), rfl, ?_⟩
    rintro call hslug hrequested -
    refine ⟨s.nextPromise, rfl, Nat.lt_succ_self _, ?_, ?_⟩
    · intro l hl
      rcases update_some_cases hl with ⟨-, rfl⟩ | ⟨hne, -⟩
      · exact ⟨hslug.symm, .inl hrequested.le⟩
      · exact absurd rfl hne
    · intro hsettled
      have hknown : s.nextPromise < s.nextPromise :=
        h.settled_known (by rw [show s.settled s.nextPromise = some true from hsettled]; exact nofun)
      exact absurd hknown (Nat.lt_irrefl _)

theorem SnapshotInv.refreshAndWait (h : s.SnapshotInv) (slug reason : String) (respectTtl : Bool)
    (now : Int) : (s.refreshAndWait options slug reason respectTtl now).SnapshotInv := by
  unfold SnapshotService.refreshAndWait
  split
  · rename_i hstopped
    refine h.addCall le_rfl fun _ hadmitted => ?_
    simp [SnapshotService.newCall, Option.isSome_iff_ne_none.mp hstopped] at hadmitted
  split
  · rename_i hunwatched
    refine h.addCall le_rfl fun _ hadmitted => ?_
    simp only [SnapshotService.newCall, Bool.and_eq_true] at hadmitted
    rw [hadmitted.2] at hunwatched
    cases hunwatched
  · split
    · rename_i hfresh
      refine h.addCall le_rfl fun hforced => ?_
      rw [show respectTtl = false from hforced] at hfresh
      cases hfresh
    · split
      · rename_i hrespect
        refine h.addCall le_rfl fun hforced => ?_
        rw [show respectTtl = false from hforced] at hrespect
        cases hrespect
      · rename_i hforced
        obtain ⟨hinv, htick, hwaits⟩ := h.refreshCollection slug reason respectTtl now
        refine hinv.addCall htick.ge fun _ => ?_
        exact hwaits _ rfl rfl (by simpa using hforced)

theorem SnapshotInv.requestRefresh (h : s.SnapshotInv) (slug reason : String) (now : Int) :
    (s.requestRefresh options slug reason now).SnapshotInv := by
  unfold SnapshotService.requestRefresh
  split
  · exact h
  · split
    · exact h
    · exact h.refreshAndWait slug reason true now

theorem SnapshotInv.continueAfterWait (h : s.SnapshotInv) (now : Int)
    (hcall : s.calls c = some call) (hrespect : call.respectTtl = true) :
    (s.continueAfterWait c call now).SnapshotInv := by
  have hnot : ∀ {P : Prop}, call.respectTtl = false → P := fun hforced => by
    rw [hrespect] at hforced
    cases hforced
  unfold SnapshotService.continueAfterWait
  split
  · exact h.setPhase (h.called hcall) hnot
  split
  · exact h.setPhase (h.called hcall) hnot
  · obtain ⟨hinv, htick, -⟩ := h.refreshCollection call.slug call.reason call.respectTtl now
    exact hinv.setPhase (htick ▸ h.called hcall) hnot

theorem SnapshotInv.resume (h : s.SnapshotInv) (c : Nat) (now : Int) :
    (s.resume options c now).SnapshotInv := by
  unfold SnapshotService.resume
  split
  · exact h
  rename_i call hcall
  have hforced := h.forced hcall
  have hrequested := h.called hcall
  split
  · rename_i hphase
    refine h.continueAfterWait now hcall ?_
    by_contra hrespect
    simpa [ForcedCall, hphase] using hforced (by simpa using hrespect)
  · rename_i p hphase
    have hrespect : call.respectTtl = true := by
      by_contra hrespect
      simpa [ForcedCall, hphase] using hforced (by simpa using hrespect)
    split
    · exact h
    · exact h.setPhase hrequested fun _ => trivial
    split
    · refine h.setPhase hrequested fun hno => ?_
      rw [hrespect] at hno
      cases hno
    · exact h.continueAfterWait now hcall hrespect
  · rename_i hphase
    refine h.setPhase hrequested fun hrespect => ?_
    have hwaits := hforced hrespect
    simp only [ForcedCall, hphase] at hwaits
    obtain ⟨p, hnone, -⟩ := hwaits
    cases hnone
  · rename_i p hphase
    split
    · exact h
    · exact h.setPhase hrequested fun _ => trivial
    rename_i hsettled
    refine h.setPhase hrequested fun hrespect _ => ?_
    have hwaits := hforced hrespect
    simp only [ForcedCall, hphase] at hwaits
    obtain ⟨q, hq, hwaits⟩ := hwaits
    cases hq
    exact hwaits.answered hsettled
  · exact h
  · exact h

theorem SnapshotInv.aside (h : s.SnapshotInv) {watched : String → Bool} {tick : Nat} (hle : s.tick ≤ tick) :
    SnapshotInv { s with watchedCollectionSlugs := watched, tick := tick } :=
  { h with
    called := fun hcall => (h.called hcall).trans hle
    forced := fun hcall hrespect => (h.forced hcall hrespect).mono id fun _ hp =>
      ⟨hp.known, hp.owed, hp.answered⟩ }

theorem SnapshotInv.handle (h : s.SnapshotInv) (e : SnapshotEvent) : (s.handle options e).SnapshotInv := by
  cases e with
  | watchCollection slug => exact h.aside le_rfl
  | unwatchCollection slug => exact h.aside le_rfl
  | stop => exact h.stop
  | refreshAndWait slug reason respectTtl now => exact h.refreshAndWait slug reason respectTtl now
  | requestRefresh slug reason now => exact h.requestRefresh slug reason now
  | resume call now => exact h.resume call now
  | page promise reply now random => exact h.receivePage promise reply now random

theorem SnapshotInv.step (h : s.SnapshotInv) (e : SnapshotEvent) : (s.step options e).SnapshotInv :=
  (h.handle e).aside (Nat.le_succ _)

theorem SnapshotInv.after (options : SnapshotServiceOptions) (collectionSlugs : List String)
    (es : List SnapshotEvent) : (SnapshotService.after options collectionSlugs es).SnapshotInv :=
  Machine.run_invariant (fun _ e h => h.step e) (.initial collectionSlugs) es

/-! ## 6. When a snapshot is replaced -/

/-- The snapshots and the complete fetches are the same. -/
def SameSnapshots (s s' : SnapshotService) : Prop :=
  s'.snapshots = s.snapshots ∧ s'.completed = s.completed

theorem sameSnapshots_stop : s.SameSnapshots s.stop := by
  unfold SnapshotService.stop
  split
  · exact ⟨rfl, rfl⟩
  · exact ⟨rfl, rfl⟩

variable {respectTtl : Bool}

theorem sameSnapshots_refreshCollection :
    s.SameSnapshots (s.refreshCollection slug reason respectTtl now).1 := by
  unfold SnapshotService.refreshCollection
  split
  · exact ⟨rfl, rfl⟩
  · exact ⟨rfl, rfl⟩

theorem sameSnapshots_refreshAndWait :
    s.SameSnapshots (s.refreshAndWait options slug reason respectTtl now) := by
  unfold SnapshotService.refreshAndWait
  split
  · exact ⟨rfl, rfl⟩
  split
  · exact ⟨rfl, rfl⟩
  split
  · exact ⟨rfl, rfl⟩
  · split
    · exact ⟨rfl, rfl⟩
    · exact sameSnapshots_refreshCollection

theorem sameSnapshots_requestRefresh : s.SameSnapshots (s.requestRefresh options slug reason now) := by
  unfold SnapshotService.requestRefresh
  split
  · exact ⟨rfl, rfl⟩
  · split
    · exact ⟨rfl, rfl⟩
    · exact sameSnapshots_refreshAndWait

theorem sameSnapshots_continueAfterWait : s.SameSnapshots (s.continueAfterWait c call now) := by
  unfold SnapshotService.continueAfterWait
  split
  · exact ⟨rfl, rfl⟩
  · split
    · exact ⟨rfl, rfl⟩
    · exact sameSnapshots_refreshCollection

theorem sameSnapshots_resume : s.SameSnapshots (s.resume options c now) := by
  unfold SnapshotService.resume
  split
  · exact ⟨rfl, rfl⟩
  split
  · exact sameSnapshots_continueAfterWait
  · split
    · exact ⟨rfl, rfl⟩
    · exact ⟨rfl, rfl⟩
    · split
      · exact ⟨rfl, rfl⟩
      · exact sameSnapshots_continueAfterWait
  · exact ⟨rfl, rfl⟩
  · split <;> exact ⟨rfl, rfl⟩
  · exact ⟨rfl, rfl⟩
  · exact ⟨rfl, rfl⟩

theorem sameSnapshots_takePendingRequest : s.SameSnapshots (s.takePendingRequest options p loop now) := by
  unfold SnapshotService.takePendingRequest
  split
  · exact ⟨rfl, rfl⟩
  · split
    · exact ⟨rfl, rfl⟩
    · exact ⟨rfl, rfl⟩

/-- The fetch that a step completed, and nothing but its snapshot in the table. -/
def Replaces (s s' : SnapshotService) (done : CompletedFetch) : Prop :=
  s'.completed = s.completed ++ [done] ∧
    s'.snapshots = Function.update s.snapshots done.slug (some done.snapshot)

theorem receivePage_snapshots (s : SnapshotService) (p : Nat) (reply : Option Js.Value) (now : Int)
    (random : ℚ) : s.SameSnapshots (s.receivePage options p reply now random) ∨
      ∃ done, s.Replaces (s.receivePage options p reply now random) done := by
  unfold SnapshotService.receivePage
  split
  · exact .inl ⟨rfl, rfl⟩
  rename_i loop hloop
  split
  · exact .inl ⟨rfl, rfl⟩
  rename_i response
  split
  · exact .inl ⟨rfl, rfl⟩
  rename_i result hpage
  split
  · have hkept : (s.storeSnapshot loop (loop.fetch.received response).pages result now).SameSnapshots
        ((s.storeSnapshot loop (loop.fetch.received response).pages result now).takePendingRequest
          options p loop now) := sameSnapshots_takePendingRequest
    exact .inr ⟨_, hkept.2, hkept.1⟩
  · exact .inl ⟨rfl, rfl⟩

/-- **A step leaves the snapshots as they were, or completes a fetch and stores its snapshot.** -/
theorem step_snapshots (s : SnapshotService) (e : SnapshotEvent) :
    s.SameSnapshots (s.step options e) ∨ ∃ done, s.Replaces (s.step options e) done := by
  cases e with
  | watchCollection slug => exact .inl ⟨rfl, rfl⟩
  | unwatchCollection slug => exact .inl ⟨rfl, rfl⟩
  | stop => exact .inl sameSnapshots_stop
  | refreshAndWait slug reason respectTtl now => exact .inl sameSnapshots_refreshAndWait
  | requestRefresh slug reason now => exact .inl sameSnapshots_requestRefresh
  | resume call now => exact .inl sameSnapshots_resume
  | page promise reply now random => exact receivePage_snapshots s promise reply now random

end SnapshotService

/-! ## 7. Results -/

/-- **One fetch for a collection, an answer that is new enough, and snapshots of complete fetches only.**
In every state that the service reaches: a collection has at most one refresh loop; an admitted forced call
that has resolved was answered by a complete fetch that started with it or after it, or, when the service
was stopped while it waited, by the complete fetch that was running; and the next step replaces a
snapshot only by that of the complete fetch it ends. -/
theorem forced_refresh_is_answered_by_new_fetch (options : SnapshotServiceOptions)
    (collectionSlugs : List String) (es : List SnapshotEvent) :
    (∀ p q loop loop', (SnapshotService.after options collectionSlugs es).loops p = some loop →
      (SnapshotService.after options collectionSlugs es).loops q = some loop' →
      loop.slug = loop'.slug → p = q) ∧
    (∀ c call outcome, (SnapshotService.after options collectionSlugs es).calls c = some call →
      call.respectTtl = false → call.admitted = true → call.phase = .resolved outcome →
      ∃ done ∈ (SnapshotService.after options collectionSlugs es).completed,
        done.slug = call.slug ∧ CompletePagination done.pages done.snapshot.offers ∧
        (call.requestedAt ≤ done.startedTick ∨ call.requestedAt ≤ done.finishedTick ∧
            ∃ t, (SnapshotService.after options collectionSlugs es).stoppedAt = some t ∧
              call.requestedAt ≤ t)) ∧
    (∀ e slug, (SnapshotService.after options collectionSlugs (es ++ [e])).snapshots slug =
        (SnapshotService.after options collectionSlugs es).snapshots slug ∨
      ∃ done, (SnapshotService.after options collectionSlugs (es ++ [e])).completed =
          (SnapshotService.after options collectionSlugs es).completed ++ [done] ∧
        done.slug = slug ∧ CompletePagination done.pages done.snapshot.offers ∧
        (SnapshotService.after options collectionSlugs (es ++ [e])).snapshots slug =
          some done.snapshot) := by
  have h := SnapshotService.SnapshotInv.after options collectionSlugs es
  refine ⟨fun p q loop loop' hp hq hslug => h.one_loop hp hq hslug, ?_, ?_⟩
  · intro c call outcome hcall hrespect hadmitted hphase
    have hforced := h.forced hcall hrespect
    simp only [SnapshotService.ForcedCall, hphase] at hforced
    rcases hforced hadmitted with ⟨done, hmem, hslug, hle⟩ | ⟨hstopped, done, hmem, hslug, hle⟩
    · exact ⟨done, hmem, hslug, h.complete done hmem, .inl hle⟩
    · exact ⟨done, hmem, hslug, h.complete done hmem, .inr ⟨hle, hstopped⟩⟩
  · intro e slug
    have hafter : SnapshotService.after options collectionSlugs (es ++ [e]) =
        (SnapshotService.after options collectionSlugs es).step options e := Machine.run_concat
    have hnext := SnapshotService.SnapshotInv.after options collectionSlugs (es ++ [e])
    rcases SnapshotService.step_snapshots (SnapshotService.after options collectionSlugs es) e with
      hsame | ⟨done, hcompleted, hsnapshots⟩
    · rw [hafter]
      exact .inl (congrFun hsame.1 slug)
    rw [← hafter] at hcompleted hsnapshots
    rcases eq_or_ne slug done.slug with rfl | hne
    · refine .inr ⟨done, hcompleted, rfl, ?_, ?_⟩
      · exact hnext.complete done (by rw [hcompleted]; exact List.mem_append_right _ (List.mem_singleton_self _))
      · rw [hsnapshots, update_self]
    · exact .inl (by rw [hsnapshots, update_of_ne hne])

/-- A page with no offers and no next page. -/
def lastPage : Js.Value := .object []

/-- A forced call that comes during a fetch is answered by the fetch after it. -/
example :
    ((SnapshotService.after ⟨1000, none, none⟩ ["cool-cats"]
      [.requestRefresh "cool-cats" "poll cadence" 0, .resume 0 0,
        .refreshAndWait "cool-cats" "command" false 1,
        .page 0 (some lastPage) 2 0, .page 0 (some lastPage) 3 0, .resume 1 4]).calls 1).map
        (fun call => (call.requestedAt, call.phase)) = some (2, .resolved .refreshed) ∧
    ((SnapshotService.after ⟨1000, none, none⟩ ["cool-cats"]
      [.requestRefresh "cool-cats" "poll cadence" 0, .resume 0 0,
        .refreshAndWait "cool-cats" "command" false 1,
        .page 0 (some lastPage) 2 0, .page 0 (some lastPage) 3 0, .resume 1 4]).completed).map
        (fun done => (done.startedTick, done.finishedTick)) = [(1, 3), (3, 4)] := by
  decide +kernel

/-- **Two ways a forced call resolves without a fetch of its own.**  On a collection that is not watched it
resolves with no fetch at all.  And when it waits behind a fetch and the service is stopped, it resolves
with that fetch, which started before it. -/
theorem forced_refresh_resolves_without_new_fetch :
    (¬ ∀ (options : SnapshotServiceOptions) (collectionSlugs : List String) (es : List SnapshotEvent)
        (c : Nat) (call : RefreshCall) (outcome : RefreshOutcome),
        (SnapshotService.after options collectionSlugs es).calls c = some call →
        call.respectTtl = false → call.phase = .resolved outcome →
        ∃ done ∈ (SnapshotService.after options collectionSlugs es).completed,
          done.slug = call.slug ∧ call.requestedAt ≤ done.startedTick) ∧
    (SnapshotService.after ⟨1000, none, none⟩ ["cool-cats"]
        [.refreshAndWait "cool-cats" "bootstrap" false 0, .refreshAndWait "cool-cats" "command" false 1,
          .stop, .page 0 (some lastPage) 2 0, .resume 1 3]).calls 1 =
      some ⟨"cool-cats", "command", false, 1, true, .resolved .refreshed⟩ ∧
    (SnapshotService.after ⟨1000, none, none⟩ ["cool-cats"]
        [.refreshAndWait "cool-cats" "bootstrap" false 0, .refreshAndWait "cool-cats" "command" false 1,
          .stop, .page 0 (some lastPage) 2 0, .resume 1 3]).completed.map CompletedFetch.startedTick =
      [0] := by
  refine ⟨?_, by decide +kernel, by decide +kernel⟩
  intro hclaim
  obtain ⟨done, hmem, -⟩ := hclaim ⟨1000, none, none⟩ []
    [.refreshAndWait "cool-cats" "command" false 0] 0
    ⟨"cool-cats", "command", false, 0, false, .resolved .unwatched⟩ .unwatched
    (by decide +kernel) rfl rfl
  have hnone : (SnapshotService.after ⟨1000, none, none⟩ []
      [.refreshAndWait "cool-cats" "command" false 0]).completed = [] := rfl
  rw [hnone] at hmem
  cases hmem

end Artgod.Trading
