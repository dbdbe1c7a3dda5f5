import Ghpulse.Web.App

/-!
# The dashboard of the page

In every run of clicks, answers, events and renders, the dashboard does not wait for an answer that will never
come, unless the range that is active was clicked again: such a click clears the dashboard, and since no
dependency of the load effect changes, nothing is requested.

Reference: `src/app.jsx` (`App`).
-/

open Python Js Batched

namespace Ghpulse.Web.App

open Coordinator (Selection Phase Published Output Reason Data texts)

/-! ## What the coordinator's calls leave alone

The dashboard ends at what the calls of the coordinator make of it, one after the other; the other fields
do not take part.
-/

/-- The fields that a call of the coordinator does not touch. -/
structure Framed (s s' : State) : Prop where
  search : s'.search = s.search
  selection : s'.selection = s.selection
  repositories : s'.repositories = s.repositories
  repositoryError : s'.repositoryError = s.repositoryError
  nonce : s'.nonce.value = s.nonce.value
  requestId : s'.requestId = s.requestId
  handled : s'.handled = s.handled
  requests : s'.requests = s.requests
  coordinator : s'.coordinator = s.coordinator
  listDeps : s'.listDeps = s.listDeps
  loadDeps : s'.loadDeps = s.loadDeps
  effectsDue : s'.effectsDue = s.effectsDue

/-- What the coordinator says touches the dashboard and the nonce alone. -/
theorem framed_onOutput (s : State) (o : Output Str Value) : Framed s (onOutput s o) := by
  cases o with
  | ingest failed selection =>
    cases failed <;> exact ⟨rfl, rfl, rfl, rfl, rfl, rfl, rfl, rfl, rfl, rfl, rfl, rfl⟩
  | _ => exact ⟨rfl, rfl, rfl, rfl, rfl, rfl, rfl, rfl, rfl, rfl, rfl, rfl⟩

/-- Two such steps in a row are one. -/
theorem Framed.trans {s s' s'' : State} (h : Framed s s') (h' : Framed s' s'') : Framed s s'' where
  search := h'.search.trans h.search
  selection := h'.selection.trans h.selection
  repositories := h'.repositories.trans h.repositories
  repositoryError := h'.repositoryError.trans h.repositoryError
  nonce := h'.nonce.trans h.nonce
  requestId := h'.requestId.trans h.requestId
  handled := h'.handled.trans h.handled
  requests := h'.requests.trans h.requests
  coordinator := h'.coordinator.trans h.coordinator
  listDeps := h'.listDeps.trans h.listDeps
  loadDeps := h'.loadDeps.trans h.loadDeps
  effectsDue := h'.effectsDue.trans h.effectsDue

/-- So is a list of them. -/
theorem framed_foldl (outputs : List (Output Str Value)) (s : State) :
    Framed s (outputs.foldl onOutput s) := by
  induction outputs generalizing s with
  | nil => exact ⟨rfl, rfl, rfl, rfl, rfl, rfl, rfl, rfl, rfl, rfl, rfl, rfl⟩
  | cons o outputs ih => exact (framed_onOutput s o).trans (ih _)

/-- What is shown after a call of the coordinator. -/
def shownAfter (shown : Shown) : Output Str Value → Shown
  | .notify p => ⟨p.phase, p.selection, p.data, p.error⟩
  | _ => shown

/-- What the dashboard ends at is folded from what the coordinator says. -/
theorem dashboard_foldl (outputs : List (Output Str Value)) (s : State) :
    (outputs.foldl onOutput s).dashboard.final = outputs.foldl shownAfter s.dashboard.final := by
  induction outputs generalizing s with
  | nil => rfl
  | cons o outputs ih =>
    have hone : (onOutput s o).dashboard.final = shownAfter s.dashboard.final o := by
      cases o with
      | notify p => exact Hook.final_set _ _ _
      | ingest failed selection => cases failed <;> rfl
      | _ => rfl
    rw [List.foldl_cons, List.foldl_cons, ih, hone]

/-- An event of an ingest that succeeded. -/
def isIngestDone : Output Str Value → Bool
  | .ingest false _ => true
  | _ => false

/-- Each announced ingest run counts the nonce up. -/
theorem nonce_foldl (outputs : List (Output Str Value)) (s : State) :
    (outputs.foldl onOutput s).nonce.final = s.nonce.final + outputs.countP isIngestDone := by
  induction outputs generalizing s with
  | nil => rfl
  | cons o outputs ih =>
    have hone : (onOutput s o).nonce.final = s.nonce.final + if isIngestDone o then 1 else 0 := by
      cases o with
      | ingest failed selection =>
        cases failed
        · exact Hook.final_update _ _ _
        · rfl
      | _ => rfl
    rw [List.foldl_cons, ih, hone, List.countP_cons, Nat.add_assoc, Nat.add_comm (outputs.countP _)]

/-- The coordinator moves on, and what it adds to its log reaches the component. -/
theorem absorb_eq {s : State} {coordinator : Coordinator.State Str Value} {new : List (Output Str Value)}
    (h : coordinator.log = s.coordinator.log ++ new) :
    absorb s coordinator = new.foldl onOutput { s with coordinator := coordinator } := by
  rw [absorb, h, List.drop_left]

/-! ## The request in flight

The coordinator after a load: the selection is active, its request is the last one, and only earlier ones
have been aborted. Each of its operations keeps this.
-/

/-- A function that was updated has the new value there. -/
theorem update_at {β : Type} {f : ℕ → β} {i j : ℕ} (h : i = j) (v : β) : Function.update f i v j = v := by
  rw [h]
  exact Function.update_self _ _ _

/-- The coordinator after the load of a selection. -/
structure Loaded (c : Coordinator.State Str Value) (selection : Selection Str) : Prop where
  opened : c.disposed = false
  active : c.activeSelection = some selection
  request : ∃ r, c.requests c.requestId = some r ∧ r.selection = selection ∧
    ∀ e, r.status = .rejected e → e.name ≠ lit "AbortError"
  aborted : ∀ id, c.log.any (aborts id) = true → id < c.requestId
  controller : ∀ id, c.controller = some id → id ≤ c.requestId

/-- A dashboard that is not at the end of a load has a request whose handlers have not run. -/
def Waits (c : Coordinator.State Str Value) (shown : Shown) : Prop :=
  ¬ shown.phase.Terminal → ∃ r, c.requests c.requestId = some r ∧ r.status ≠ .handled

/-- An abort that new entries do not hold was there before. -/
theorem any_append_of_false {log new : List (Output Str Value)} {id : ℕ}
    (h : (log ++ new).any (aborts id) = true) (hnew : ∀ o ∈ new, aborts id o = false) :
    log.any (aborts id) = true := by
  rw [List.any_append, Bool.or_eq_true] at h
  refine h.resolve_right fun hany => ?_
  obtain ⟨o, ho, haborts⟩ := List.any_eq_true.mp hany
  exact Bool.noConfusion ((hnew o ho).symm.trans haborts)

/-- A load starts a request for its selection, and shows that it does. -/
theorem Loaded.load {c : Coordinator.State Str Value} (hopen : c.disposed = false)
    (haborted : ∀ id, c.log.any (aborts id) = true → id < c.requestId)
    (hcontroller : ∀ id, c.controller = some id → id ≤ c.requestId) {selection : Selection Str}
    (hrange : selection.range ≠ []) (retain fresh : Bool) :
    Loaded (Coordinator.load texts c (some selection) retain fresh none) selection ∧
      (∀ shown, Waits (Coordinator.load texts c (some selection) retain fresh none) shown) ∧
      ∃ new, (Coordinator.load texts c (some selection) retain fresh none).log = c.log ++ new ∧
        ∀ shown, (new.foldl shownAfter shown).selection = selection := by
  have hrequest (id : ℕ) (requests : ℕ → Option (Coordinator.Request Str Value))
      (r : Coordinator.Request Str Value) : Function.update requests id (some r) id = some r :=
    Function.update_self _ _ _
  rw [Coordinator.load_eq hopen (Coordinator.normalize_texts hrange)]
  refine ⟨⟨hopen, rfl, ⟨_, hrequest _ _ _, rfl, fun e he => by cases he⟩, ?_, ?_⟩,
    fun shown _ => ⟨_, hrequest _ _ _, by simp⟩, ⟨_, rfl, ?_⟩⟩
  · intro id hid
    change id < c.requestId + 1
    rw [List.any_append, Bool.or_eq_true] at hid
    rcases hid with hid | hid
    · exact Nat.lt_succ_of_lt (haborted id hid)
    · refine Nat.lt_succ_of_le (hcontroller id ?_)
      unfold Coordinator.loadOutput Coordinator.abortOutput at hid
      cases hcurrent : c.controller with
      | none => simp [hcurrent, aborts] at hid
      | some id' =>
        simp only [hcurrent, Option.map_some, Option.toList_some, List.cons_append, List.nil_append,
          List.any_cons, aborts, List.any_nil, Bool.or_false, decide_eq_true_iff] at hid
        rw [hid]
  · intro id hid
    cases hid
    exact le_rfl
  · intro shown
    unfold Coordinator.loadOutput Coordinator.abortOutput
    cases c.controller <;> rfl

/-- A request that settles leaves the page in step and says nothing. -/
theorem Loaded.settle {c c' : Coordinator.State Str Value} {selection : Selection Str}
    (h : Loaded c selection) {id : ℕ} {outcome : Value ⊕ Reason}
    (hreject : mayReject outcome.getRight? (c.log.any (aborts id)) = true)
    (hstep : Coordinator.settle c id outcome = some c') :
    Loaded c' selection ∧ c'.log = c.log ∧ ∀ shown, Waits c shown → Waits c' shown := by
  obtain ⟨r, hr, hpending, rfl⟩ := Coordinator.settle_eq hstep
  obtain ⟨current, hcurrent, hselection, hreason⟩ := h.request
  have hmoved (hid : id = c.requestId) : r = current := by
    subst hid
    exact Option.some.inj (hr.symm.trans hcurrent)
  refine ⟨⟨h.opened, h.active, ?_, h.aborted, h.controller⟩, rfl, fun shown hwaits hphase => ?_⟩
  · by_cases hid : id = c.requestId
    · obtain rfl := hmoved hid
      refine ⟨_, update_at hid _, hselection, fun e he hname => ?_⟩
      cases outcome with
      | inl body => cases he
      | inr e' =>
        cases he
        change (decide (e.name ≠ lit "AbortError") || c.log.any (aborts id)) = true at hreject
        rw [Bool.or_eq_true, decide_eq_true_iff] at hreject
        -- an `AbortError` only comes from an abort
        rcases hreject with hne | haborted
        · exact hne hname
        · exact absurd (h.aborted id haborted) (hid ▸ lt_irrefl _)
    · exact ⟨current, (Function.update_of_ne (Ne.symm hid) _ _).trans hcurrent, hselection, hreason⟩
  · by_cases hid : id = c.requestId
    · refine ⟨_, update_at hid _, ?_⟩
      cases outcome <;> simp
    · obtain ⟨waiting, hwaiting, hstatus⟩ := hwaits hphase
      exact ⟨waiting, (Function.update_of_ne (Ne.symm hid) _ _).trans hwaiting, hstatus⟩

/-- The last request of a page in step is not superseded. -/
theorem Loaded.not_superseded {c : Coordinator.State Str Value} {selection : Selection Str}
    (h : Loaded c selection) : Coordinator.superseded c c.requestId selection = false := by
  have hsame : Coordinator.sameDashboardSelection c.activeSelection (some selection) = true :=
    Coordinator.sameDashboardSelection_iff.mpr h.active
  rw [Coordinator.superseded, h.opened, hsame]
  simp

/-- The reaction to a request keeps the page in step, and what it shows on its selection. -/
theorem Loaded.react {c c' : Coordinator.State Str Value} {selection : Selection Str}
    (h : Loaded c selection) {id : ℕ} (hstep : Coordinator.react c id = some c') :
    Loaded c' selection ∧ ∃ new, c'.log = c.log ++ new ∧
      (∀ shown, Waits c shown → Waits c' (new.foldl shownAfter shown)) ∧
      (∀ shown, shown.selection = selection → (new.foldl shownAfter shown).selection = selection) ∧
      (id = c.requestId → ∀ shown, (new.foldl shownAfter shown).phase.Terminal) := by
  obtain ⟨r, hr, hpending, hhandled, hreacts⟩ := Coordinator.reacts_of_react hstep
  obtain ⟨current, hcurrent, hselection, hreason⟩ := h.request
  have hrequest : ∃ r', (c.handle id r).requests c.requestId = some r' ∧ r'.selection = selection ∧
      ∀ e, r'.status = .rejected e → e.name ≠ lit "AbortError" := by
    by_cases hid : id = c.requestId
    · obtain rfl : r = current := Option.some.inj (hr.symm.trans (hid ▸ hcurrent))
      exact ⟨_, update_at hid _, hselection, fun e he => by cases he⟩
    · exact ⟨current, (Function.update_of_ne (Ne.symm hid) _ _).trans hcurrent, hselection, hreason⟩
  cases hreacts with
  | silent hsilent =>
    have hne : id ≠ c.requestId := by
      rintro rfl
      obtain rfl : r = current := Option.some.inj (hr.symm.trans hcurrent)
      rcases hsilent with hsuperseded | ⟨e, he, hname⟩
      · rw [hselection, h.not_superseded] at hsuperseded
        cases hsuperseded
      -- only an `AbortError` ends a request silently, and the last one is not rejected with it
      · exact hreason e he hname
    refine ⟨⟨h.opened, h.active, hrequest, fun id' hid' => ?_, h.controller⟩, _, rfl,
      fun shown hwaits hphase => ?_,
      fun shown hshown => hshown, fun hid => absurd hid hne⟩
    · refine h.aborted id' (any_append_of_false hid' fun o ho => ?_)
      rw [List.mem_singleton.mp ho]
      rfl
    · obtain ⟨waiting, hwaiting, hstatus⟩ := hwaits hphase
      exact ⟨waiting, (Function.update_of_ne (Ne.symm hne) _ _).trans hwaiting, hstatus⟩
  -- what is published ends the load, so nothing waits any more
  | published p answer controller hopen hphase hpselection _ _ _ _ hcontroller =>
    have hcurrentId : id = c.requestId ∧ r.selection = selection := by
      obtain ⟨-, hid, hsame⟩ := Coordinator.not_superseded hopen
      exact ⟨hid, (Option.some.inj (h.active.symm.trans hsame)).symm⟩
    refine ⟨⟨h.opened, h.active, hrequest, fun id' hid' => ?_, fun id' hid' => ?_⟩,
      [.notify p, .answer id answer],
      Coordinator.log_two _ _ _, fun shown _ hnot => absurd hphase hnot,
      fun shown _ => hpselection.trans hcurrentId.2, fun _ _ => hphase⟩
    · refine h.aborted id' (any_append_of_false (any_append_of_false hid' fun o ho => ?_) fun o ho => ?_)
      · rw [List.mem_singleton.mp ho]
        rfl
      · rw [List.mem_singleton.mp ho]
        rfl
    · rcases hcontroller with rfl | rfl
      · cases hid'
      · exact h.controller id' hid'

/-- An event of the stream keeps the page in step, and what it shows on its selection. -/
theorem Loaded.deliver {c c' : Coordinator.State Str Value} {selection : Selection Str}
    (h : Loaded c selection) (hrange : selection.range ≠ []) {event : Coordinator.Event}
    (hstep : Coordinator.deliver texts c 0 event none = some c') :
    Loaded c' selection ∧ ∃ new, c'.log = c.log ++ new ∧
      (∀ shown, Waits c shown → Waits c' (new.foldl shownAfter shown)) ∧
      ∀ shown, shown.selection = selection → (new.foldl shownAfter shown).selection = selection := by
  have hquiet {o : Output Str Value} (ho : ∀ id, aborts id o = false) (id : ℕ) :
      ∀ o' ∈ [o], aborts id o' = false := fun o' ho' => List.mem_singleton.mp ho' ▸ ho id
  rcases Coordinator.deliver_cases hstep with ⟨-, connected, rfl⟩ | ⟨-, failed, rfl⟩
  · exact ⟨⟨h.opened, h.active, h.request,
      fun id hid => h.aborted id (any_append_of_false hid (hquiet (fun _ => rfl) id)), h.controller⟩, _, rfl,
      fun shown hwaits => hwaits, fun shown hshown => hshown⟩
  · rw [Coordinator.onIngest_eq h.active]
    obtain ⟨hloaded, hwaits, new, hlog, hshown⟩ := Loaded.load
      (c := { c with log := c.log ++ [.stream true] ++ [.ingest failed (some selection)] }) h.opened
      (fun id hid => h.aborted id (any_append_of_false
        (any_append_of_false hid (hquiet (fun _ => rfl) id)) (hquiet (fun _ => rfl) id)))
      h.controller hrange true true
    refine ⟨hloaded, [.stream true] ++ [.ingest failed (some selection)] ++ new, ?_, fun shown _ => hwaits _,
      fun shown _ => ?_⟩
    · rw [hlog]
      simp only [List.append_assoc]
    · rw [List.foldl_append]
      exact hshown _

/-! ## The load effect

On mount and after a change of the selection it loads, and otherwise does nothing; these are all the loads
but those of the event stream.
-/

/-- Connecting keeps the page in step and says nothing. -/
theorem Loaded.connect {c : Coordinator.State Str Value} {selection : Selection Str} (h : Loaded c selection)
    (made : Option Coordinator.Abilities) :
    Loaded (Coordinator.connect c made) selection ∧ (Coordinator.connect c made).log = c.log ∧
      ∀ shown, Waits c shown → Waits (Coordinator.connect c made) shown := by
  unfold Coordinator.connect
  split_ifs
  · exact ⟨h, rfl, fun _ hwaits => hwaits⟩
  · cases made with
    | none => exact ⟨h, rfl, fun _ hwaits => hwaits⟩
    | some can =>
      exact ⟨⟨h.opened, h.active, h.request, h.aborted, h.controller⟩, rfl, fun _ hwaits => hwaits⟩

/-- The coordinator of a page: not mounted yet, or after a load. -/
def Mounting (loadDeps : Option (Selection Str)) (c : Coordinator.State Str Value) : Prop :=
  loadDeps = none ∧ c = .initial ∨ ∃ selection, loadDeps = some selection ∧ Loaded c selection

/-- What the load effect does: nothing, or a load of the selection. -/
theorem loadEffect_eq {s : State} (hrange : s.selection.range ≠ [])
    (hmounting : Mounting s.loadDeps s.coordinator) :
    ∃ c new, c.log = s.coordinator.log ++ new ∧ Loaded c s.selection ∧
      loadEffect s = { new.foldl onOutput { s with coordinator := c } with loadDeps := some s.selection } ∧
      (s.loadDeps = some s.selection ∧ c = s.coordinator ∧ new = [] ∨
        s.loadDeps ≠ some s.selection ∧ (∀ shown, Waits c shown) ∧
          ∀ shown, (new.foldl shownAfter shown).selection = s.selection) := by
  unfold loadEffect
  by_cases hdeps : s.loadDeps = some s.selection
  · rw [if_pos hdeps]
    rcases hmounting with ⟨hnone, -⟩ | ⟨selection, hsome, hloaded⟩
    · rw [hnone] at hdeps
      cases hdeps
    · obtain rfl : selection = s.selection := Option.some.inj (hsome.symm.trans hdeps)
      refine ⟨s.coordinator, [], (List.append_nil _).symm, hloaded, ?_, Or.inl ⟨hdeps, rfl, rfl⟩⟩
      rw [← hdeps]
      rfl
  · rw [if_neg hdeps]
    have hready : s.coordinator.disposed = false ∧
        (∀ id, s.coordinator.log.any (aborts id) = true → id < s.coordinator.requestId) ∧
          ∀ id, s.coordinator.controller = some id → id ≤ s.coordinator.requestId := by
      rcases hmounting with ⟨-, hinitial⟩ | ⟨selection, -, hloaded⟩
      · rw [hinitial]
        refine ⟨rfl, ?_, ?_⟩ <;> (intro id hid; cases hid)
      · exact ⟨hloaded.opened, hloaded.aborted, hloaded.controller⟩
    obtain ⟨hloaded, hwaits, new, hlog, hshown⟩ :=
      Loaded.load hready.1 hready.2.1 hready.2.2 hrange true false
    obtain ⟨hconnected, hsame, hkeeps⟩ := hloaded.connect (some ⟨true, true, true⟩)
    dsimp only
    split_ifs
    · exact ⟨_, new, hsame.trans hlog, hconnected, by rw [absorb_eq (hsame.trans hlog)],
        Or.inr ⟨hdeps, fun shown => hkeeps shown (hwaits shown), hshown⟩⟩
    · exact ⟨_, new, hlog, hloaded, by rw [absorb_eq hlog], Or.inr ⟨hdeps, hwaits, hshown⟩⟩

/-- The fields that the effect of the repository list does not touch. -/
theorem listEffect_eq (s : State) :
    ∃ requestId repositoryError requests listDeps, listEffect s = { s with
      requestId := requestId
      repositoryError := repositoryError
      requests := requests
      listDeps := listDeps } := by
  unfold listEffect
  split_ifs
  · exact ⟨_, _, _, _, rfl⟩
  · exact ⟨_, _, _, _, rfl⟩

/-! ## The dashboard

Before it is mounted a page has loaded nothing. From then on it has loaded what is selected, since a click
runs its effects before anything else can happen.
-/

/-- The page is not mounted yet, or it has loaded what is selected. -/
structure Settled (s : State) : Prop where
  range : s.selection.range ≠ []
  deps : s.loadDeps = none ∧ s.coordinator = .initial ∧ s.effectsDue = true ∨
    s.loadDeps = some s.selection ∧ Loaded s.coordinator s.selection

/-- What the effects that are due do to the dashboard. -/
theorem flush_dashboard {s : State} (hrange : s.selection.range ≠ [])
    (hmounting : Mounting s.loadDeps s.coordinator) (hdue : s.effectsDue = true) :
    (flush s).selection = s.selection ∧ (flush s).loadDeps = some s.selection ∧
      Loaded (flush s).coordinator s.selection ∧
      (s.loadDeps = some s.selection ∧ (flush s).coordinator = s.coordinator ∧
          (flush s).dashboard.final = s.dashboard.final ∨
        s.loadDeps ≠ some s.selection ∧ Waits (flush s).coordinator (flush s).dashboard.final ∧
          (flush s).dashboard.final.selection = s.selection) := by
  obtain ⟨requestId, repositoryError, requests, listDeps, hlist⟩ := listEffect_eq s
  obtain ⟨c, new, hlog, hloaded, hload, hcases⟩ := loadEffect_eq (s := { s with
    requestId := requestId, repositoryError := repositoryError, requests := requests, listDeps := listDeps })
    hrange hmounting
  have hframed := framed_foldl new { s with
    requestId := requestId, repositoryError := repositoryError, requests := requests, listDeps := listDeps,
    coordinator := c }
  have hshown := dashboard_foldl new { s with
    requestId := requestId, repositoryError := repositoryError, requests := requests, listDeps := listDeps,
    coordinator := c }
  unfold flush
  rw [if_pos hdue, hlist, hload]
  dsimp only at hframed hshown hcases ⊢
  refine ⟨hframed.selection, rfl, ?_, ?_⟩
  · rw [hframed.coordinator]
    exact hloaded
  · rw [hframed.coordinator, hshown]
    rcases hcases with ⟨hdeps, rfl, rfl⟩ | ⟨hdeps, hwaits, hselection⟩
    · exact Or.inl ⟨hdeps, rfl, rfl⟩
    · exact Or.inr ⟨hdeps, hwaits _, hselection _⟩

/-- A page whose effects have run has loaded what it depends on. -/
theorem Settled.mounting {s : State} (h : Settled s) : Mounting s.loadDeps s.coordinator :=
  h.deps.imp (fun hnone => ⟨hnone.1, hnone.2.1⟩) fun hsome => ⟨s.selection, hsome⟩

/-- After the effects, what is selected is loaded; they change the dashboard only on mount. -/
theorem Settled.flush {s : State} (h : Settled s) :
    (flush s).selection = s.selection ∧ (flush s).loadDeps = some s.selection ∧
      Loaded (flush s).coordinator s.selection ∧
      (s.loadDeps = some s.selection ∧ (App.flush s).coordinator = s.coordinator ∧
          (App.flush s).dashboard.final = s.dashboard.final ∨
        s.loadDeps = none ∧ Waits (App.flush s).coordinator (App.flush s).dashboard.final ∧
          (App.flush s).dashboard.final.selection = s.selection) := by
  by_cases hdue : s.effectsDue = true
  · obtain ⟨hselection, hdeps, hloaded, hcases⟩ := flush_dashboard h.range h.mounting hdue
    refine ⟨hselection, hdeps, hloaded, hcases.imp id fun hload => ⟨?_, hload.2⟩⟩
    exact (h.deps.resolve_right fun hsome => hload.1 hsome.1).1
  · have hflush : App.flush s = s := if_neg hdue
    obtain ⟨hdeps, hloaded⟩ := h.deps.resolve_left fun hnone => hdue hnone.2.2
    rw [hflush]
    exact ⟨rfl, hdeps, hloaded, Or.inl ⟨hdeps, rfl, rfl⟩⟩

/-- The end of a discrete event: what is selected now is loaded, unless it was selected before. -/
theorem Settled.finish {s : State} (h : Settled s) {selection : Selection Str}
    (hrange : selection.range ≠ []) :
    (finish s selection).selection = selection ∧ Settled (finish s selection) ∧
      (finish s selection).loadDeps = some selection ∧
      (selection = s.selection ∧ s.loadDeps = some s.selection ∧
          (App.finish s selection).coordinator = s.coordinator ∧
          (App.finish s selection).dashboard.final = s.dashboard.final ∨
        (selection = s.selection → s.loadDeps = none) ∧
          Waits (App.finish s selection).coordinator (App.finish s selection).dashboard.final ∧
          (App.finish s selection).dashboard.final.selection = selection) := by
  obtain ⟨-, hdeps, hloaded, hcases⟩ := h.flush
  obtain ⟨hselection', hdeps', hloaded', hcases'⟩ := flush_dashboard
    (s := { App.flush s with
      selection := selection
      dashboard := (App.flush s).dashboard.renderUrgent
      repositories := (App.flush s).repositories.renderUrgent
      history := (App.flush s).history.renderUrgent
      repositoryError := (App.flush s).repositoryError.renderUrgent
      nonce := (App.flush s).nonce.renderUrgent
      effectsDue := true }) hrange (Or.inr ⟨s.selection, hdeps, hloaded⟩) rfl
  unfold App.finish
  refine ⟨hselection', ⟨hselection' ▸ hrange, Or.inr ⟨?_, ?_⟩⟩, hdeps', ?_⟩
  · rw [hselection']
    exact hdeps'
  · rw [hselection']
    exact hloaded'
  · rcases hcases' with ⟨hsame, hcoordinator, hfinal⟩ | ⟨hchanged, hload⟩
    · obtain rfl : s.selection = selection := Option.some.inj (hdeps.symm.trans hsame)
      rcases hcases with ⟨hmounted, hcoordinator', hfinal'⟩ | ⟨hnone, hwaits, hselection⟩
      · exact Or.inl ⟨rfl, hmounted, hcoordinator.trans hcoordinator', hfinal.trans hfinal'⟩
      · rw [hcoordinator, hfinal]
        exact Or.inr ⟨fun _ => hnone, hwaits, hselection⟩
    · exact Or.inr ⟨fun hsame => absurd (hsame ▸ hdeps) hchanged, hload⟩

/-- Waiting is over when the coordinator's own steps say so. -/
theorem absorb_dashboard {s : State} {c : Coordinator.State Str Value} {new : List (Output Str Value)}
    (hlog : c.log = s.coordinator.log ++ new) :
    (absorb s c).selection = s.selection ∧ (absorb s c).loadDeps = s.loadDeps ∧
      (absorb s c).effectsDue = s.effectsDue ∧ (absorb s c).coordinator = c ∧
      (absorb s c).dashboard.final = new.foldl shownAfter s.dashboard.final := by
  have hframed := framed_foldl new { s with coordinator := c }
  rw [absorb_eq hlog]
  exact ⟨hframed.selection, hframed.loadDeps, hframed.effectsDue, hframed.coordinator, dashboard_foldl _ _⟩

/-! ## The invariant

What holds after every step, and what a page that waits is waiting for. A click on the active range is the
only step that can leave it waiting for nothing.
-/

/-- What holds of the dashboard after every step. -/
structure DashboardInv (s : State) : Prop extends Settled s where
  shown : s.dashboard.final.selection = s.selection

/-- The dashboard waits for a request, if at all. -/
def Patient (s : State) : Prop := s.loadDeps = none ∨ Waits s.coordinator s.dashboard.final

/-- A click on a range changes it. -/
def RangeChanges (s : State) : Action → Prop
  | .clickRange value => value ≠ s.selection.range
  | _ => True

variable {js : Runtime} {s s' : State}

/-- The page holds the invariant before it is mounted. -/
theorem DashboardInv.initial (search : Str) : DashboardInv (State.initial search) where
  range := by
    change (readFilterState search).range ≠ []
    unfold readFilterState
    dsimp only
    split_ifs with h
    · exact ne_nil_of_mem_validRanges h
    · decide
  deps := Or.inl ⟨rfl, rfl, rfl⟩
  shown := rfl

/-- A call of the coordinator after the first load. -/
theorem DashboardInv.absorb (h : DashboardInv s) (hmounted : s.loadDeps = some s.selection)
    {c : Coordinator.State Str Value} (hloaded : Loaded c s.selection) {new : List (Output Str Value)}
    (hlog : c.log = s.coordinator.log ++ new)
    (hwaits : ∀ shown, Waits s.coordinator shown → Waits c (new.foldl shownAfter shown))
    (hshown : ∀ shown, shown.selection = s.selection → (new.foldl shownAfter shown).selection = s.selection) :
    DashboardInv (absorb s c) ∧ (Patient s → Patient (App.absorb s c)) := by
  obtain ⟨hselection, hdeps, -, hcoordinator, hfinal⟩ := absorb_dashboard (s := s) hlog
  refine ⟨⟨⟨hselection ▸ h.range, Or.inr ⟨?_, ?_⟩⟩, ?_⟩, fun hpatient => Or.inr ?_⟩
  · rw [hdeps, hselection, hmounted]
  · rw [hcoordinator, hselection]
    exact hloaded
  · rw [hfinal, hselection]
    exact hshown _ h.shown
  · rw [hcoordinator, hfinal]
    refine hwaits _ (hpatient.resolve_left fun hnone => ?_)
    rw [hmounted] at hnone
    cases hnone

/-- Running the effects keeps the invariant, and a page that waits still waits. -/
theorem DashboardInv.flush (h : DashboardInv s) :
    DashboardInv (flush s) ∧ (Patient s → Patient (App.flush s)) := by
  obtain ⟨hselection, hdeps, hloaded, hcases⟩ := h.toSettled.flush
  refine ⟨⟨⟨hselection ▸ h.range, Or.inr ⟨hselection ▸ hdeps, hselection ▸ hloaded⟩⟩, ?_⟩,
    fun hpatient => Or.inr ?_⟩
  · rw [hselection]
    rcases hcases with ⟨-, -, hfinal⟩ | ⟨-, -, hshown⟩
    · exact hfinal ▸ h.shown
    · exact hshown
  · rcases hcases with ⟨hmounted, hcoordinator, hfinal⟩ | ⟨-, hwaits, -⟩
    · rw [hcoordinator, hfinal]
      refine hpatient.resolve_left fun hnone => ?_
      rw [hmounted] at hnone
      cases hnone
    · exact hwaits

/-- A click keeps the invariant, and after one on another selection the page waits. -/
theorem DashboardInv.finish {selection : Selection Str} (h : Settled s) (hrange : selection.range ≠ [])
    (hshown : s.dashboard.final.selection = selection) :
    DashboardInv (finish s selection) ∧ (selection ≠ s.selection → Patient (App.finish s selection)) := by
  obtain ⟨hselection, hsettled, hmounted, hcases⟩ := h.finish hrange
  refine ⟨⟨hsettled, ?_⟩, fun hne => Or.inr ?_⟩
  · rw [hselection]
    rcases hcases with ⟨-, -, -, hfinal⟩ | ⟨-, -, hshown'⟩
    · exact hfinal ▸ hshown
    · exact hshown'
  · rcases hcases with ⟨hsame, -⟩ | ⟨-, hwaits, -⟩
    · exact absurd hsame hne
    · exact hwaits

/-- The answer of a list request leaves the dashboard alone. -/
theorem onListed_dashboard (s : State) (id : ℕ) (r : ListRequest) (outcome : List Value ⊕ Reason) :
    (onListed s id r outcome).selection = s.selection ∧ (onListed s id r outcome).loadDeps = s.loadDeps ∧
      (onListed s id r outcome).effectsDue = s.effectsDue ∧
      (onListed s id r outcome).coordinator = s.coordinator ∧
      (onListed s id r outcome).dashboard = s.dashboard := by
  cases outcome with
  | inl rows =>
    unfold onListed
    dsimp only
    split_ifs <;> exact ⟨rfl, rfl, rfl, rfl, rfl⟩
  | inr e =>
    unfold onListed
    dsimp only
    split_ifs <;> exact ⟨rfl, rfl, rfl, rfl, rfl⟩

/-- An answer of the repository list comes to a request that is pending. -/
theorem listed_eq {id : ℕ} {outcome : List Value ⊕ Reason} (h : step js s (.listed id outcome) = some s') :
    ∃ r, s.requests id = some r ∧ r.progress = .pending ∧ mayReject outcome.getRight? (!r.alive) = true ∧
      s' = onListed s id r outcome := by
  obtain ⟨r, hr, h⟩ := Option.bind_eq_some_iff.mp h
  cases hprogress : r.progress with
  | pending =>
    simp only [hprogress, Option.ite_none_right_eq_some, Option.some.injEq] at h
    exact ⟨r, hr, hprogress, h.1, h.2.symm⟩
  | listed rows => simp only [hprogress, reduceCtorEq] at h
  | failed => simp only [hprogress, reduceCtorEq] at h

/-- The actions that call the coordinator. -/
def Action.CallsCoordinator : Action → Prop
  | .settle _ _ | .react _ | .deliver _ => True
  | _ => False

/-- What a call of the coordinator does to a page that is mounted. -/
theorem DashboardInv.called (h : DashboardInv s) {a : Action} (ha : a.CallsCoordinator)
    (hstep : step js s a = some s') :
    ∃ c new, s' = App.absorb s c ∧ c.log = s.coordinator.log ++ new ∧ s.loadDeps = some s.selection ∧
      Loaded c s.selection ∧ (∀ shown, Waits s.coordinator shown → Waits c (new.foldl shownAfter shown)) ∧
      ∀ shown, shown.selection = s.selection → (new.foldl shownAfter shown).selection = s.selection := by
  have hmounted {α : Type} {x : Option α} {c : α} (hx : s.coordinator = .initial → x = none)
      (hc : x = some c) : s.loadDeps = some s.selection ∧ Loaded s.coordinator s.selection := by
    refine h.deps.resolve_left fun hnone => ?_
    rw [hx hnone.2.1] at hc
    cases hc
  cases a with
  | settle id outcome =>
    simp only [App.step, Option.ite_none_right_eq_some, Option.map_eq_some_iff] at hstep
    obtain ⟨hreject, c, hc, rfl⟩ := hstep
    obtain ⟨hdeps, hloaded⟩ := hmounted (fun hinitial => hinitial ▸ rfl) hc
    obtain ⟨hloaded', hlog, hwaits⟩ := hloaded.settle hreject hc
    exact ⟨c, [], rfl, hlog.trans (List.append_nil _).symm, hdeps, hloaded', hwaits, fun _ hshown => hshown⟩
  | react id =>
    obtain ⟨c, hc, rfl⟩ := Option.map_eq_some_iff.mp hstep
    obtain ⟨hdeps, hloaded⟩ := hmounted (fun hinitial => hinitial ▸ rfl) hc
    obtain ⟨hloaded', new, hlog, hwaits, hshown, -⟩ := hloaded.react hc
    exact ⟨c, new, rfl, hlog, hdeps, hloaded', hwaits, hshown⟩
  | deliver event =>
    obtain ⟨c, hc, rfl⟩ := Option.map_eq_some_iff.mp hstep
    obtain ⟨hdeps, hloaded⟩ := hmounted (fun hinitial => hinitial ▸ rfl) hc
    obtain ⟨hloaded', new, hlog, hwaits, hshown⟩ := hloaded.deliver h.range hc
    exact ⟨c, new, rfl, hlog, hdeps, hloaded', hwaits, hshown⟩
  | _ => exact ha.elim

/-- Every action keeps the invariant, and a page that waits still does after a change of the range. -/
theorem DashboardInv.step (h : DashboardInv s) {a : Action} (hstep : step js s a = some s') :
    DashboardInv s' ∧ (RangeChanges s a → Patient s → Patient s') := by
  have hcall (ha : a.CallsCoordinator) : DashboardInv s' ∧ (RangeChanges s a → Patient s → Patient s') := by
    obtain ⟨c, new, rfl, hlog, hdeps, hloaded, hwaits, hshown⟩ := h.called ha hstep
    have habsorb := h.absorb hdeps hloaded hlog hwaits hshown
    exact ⟨habsorb.1, fun _ => habsorb.2⟩
  cases a with
  | settle id outcome => exact hcall trivial
  | react id => exact hcall trivial
  | deliver event => exact hcall trivial
  -- the answer of the repository list is none of the dashboard's
  | listed id outcome =>
    obtain ⟨r, -, -, -, rfl⟩ := listed_eq hstep
    obtain ⟨hselection, hdeps, hdue, hcoordinator, hdashboard⟩ := onListed_dashboard s id r outcome
    unfold Patient
    rw [hdeps, hcoordinator, hdashboard]
    refine ⟨⟨⟨hselection ▸ h.range, ?_⟩, ?_⟩, fun _ hpatient => hpatient⟩
    · rw [hdeps, hcoordinator, hdue, hselection]
      exact h.deps
    · rw [hdashboard, hselection]
      exact h.shown
  | render =>
    cases hstep
    obtain ⟨hselection, hmounted', hloaded, -⟩ := h.toSettled.flush
    refine ⟨⟨⟨h.flush.1.range, Or.inr ⟨?_, ?_⟩⟩, h.flush.1.shown⟩, fun _ => h.flush.2⟩
    · exact hmounted'.trans (congrArg some hselection.symm)
    · exact hselection.symm ▸ hloaded
  | effects =>
    cases hstep
    exact ⟨h.flush.1, fun _ => h.flush.2⟩
  | clickRange value =>
    simp only [App.step, Option.ite_none_right_eq_some, Option.some.injEq] at hstep
    obtain ⟨hvalue, rfl⟩ := hstep
    have hrange : (Selection.mk value s.selection.repository).range ≠ [] := ne_nil_of_mem_validRanges hvalue
    have hfinish := DashboardInv.finish
      (s := { s with
        dashboard := s.dashboard.set true (loading ⟨value, s.selection.repository⟩)
        repositories := s.repositories.set true []
        search := setBrowserFilterState s.search value s.selection.repository })
      ⟨h.range, h.deps⟩ hrange (congrArg Shown.selection (Hook.final_set _ _ _))
    exact ⟨hfinish.1, fun hne _ => hfinish.2 fun hsame => hne (congrArg Selection.range hsame)⟩
  | chooseRepository value =>
    simp only [App.step, Option.ite_none_right_eq_some, Option.some.injEq] at hstep
    obtain ⟨hvalue, rfl⟩ := hstep
    have hrange : (Selection.mk s.selection.range value).range ≠ [] := h.range
    have hfinish := DashboardInv.finish
      (s := { s with
        dashboard := s.dashboard.set true (loading ⟨s.selection.range, value⟩)
        search := setBrowserFilterState s.search s.selection.range value })
      ⟨h.range, h.deps⟩ hrange (congrArg Shown.selection (Hook.final_set _ _ _))
    exact ⟨hfinish.1, fun _ _ => hfinish.2 fun hsame => hvalue.1 (congrArg Selection.repository hsame)⟩

/-- In every run of the mounted page: a dashboard that is not at the end of a load waits for a request of
what is selected, whose handlers will end the load, if each click on a range has changed it; but a click on
the active range shows a load and starts none. -/
theorem dashboard_waits {search : Str} {as : List Action}
    (hrun : Runs.run (step js) (State.initial search) as = some s) (hmounted : s.loadDeps ≠ none) :
    (Runs.Guarded (step js) RangeChanges (State.initial search) as → ¬ s.dashboard.final.phase.Terminal →
      ∃ r, s.coordinator.requests s.coordinator.requestId = some r ∧ r.status ≠ .handled ∧
        r.selection = s.selection) ∧
    (∀ s', step js s (.react s.coordinator.requestId) = some s' → s'.dashboard.final.phase.Terminal) ∧
    ∀ s', step js s (.clickRange s.selection.range) = some s' →
      s'.dashboard.final = loading s.selection ∧ s'.coordinator = s.coordinator := by
  have h : DashboardInv s :=
    Runs.run_preserves (fun _ _ _ h hstep => (h.step hstep).1) (DashboardInv.initial search) hrun
  obtain ⟨hdeps, hloaded⟩ := h.deps.resolve_left fun hnone => hmounted hnone.1
  refine ⟨fun hguarded hphase => ?_, fun s' hstep => ?_, fun s' hstep => ?_⟩
  · have hpatient : DashboardInv s ∧ Patient s :=
      Runs.run_preserves_of_guarded (P := fun s => DashboardInv s ∧ Patient s)
        (fun _ _ _ h hok hstep => ⟨(h.1.step hstep).1, (h.1.step hstep).2 hok h.2⟩)
        ⟨DashboardInv.initial search, Or.inl rfl⟩ hguarded hrun
    obtain ⟨r, hr, hstatus⟩ := hpatient.2.resolve_left hmounted hphase
    obtain ⟨r', hr', hselection, -⟩ := hloaded.request
    obtain rfl : r = r' := Option.some.inj (hr.symm.trans hr')
    exact ⟨r, hr, hstatus, hselection⟩
  · obtain ⟨c, hc, rfl⟩ := Option.map_eq_some_iff.mp hstep
    obtain ⟨-, new, hlog, -, -, hterminal⟩ := hloaded.react hc
    rw [(absorb_dashboard hlog).2.2.2.2]
    exact hterminal rfl _
  -- the active range was clicked: the dashboard is cleared, and the effect finds nothing new to load
  · simp only [App.step, Option.ite_none_right_eq_some, Option.some.injEq] at hstep
    obtain ⟨-, rfl⟩ := hstep
    have hrange : (Selection.mk s.selection.range s.selection.repository).range ≠ [] := h.range
    obtain ⟨-, -, -, hcases⟩ := Settled.finish
      (s := { s with
        dashboard := s.dashboard.set true (loading s.selection)
        repositories := s.repositories.set true []
        search := setBrowserFilterState s.search s.selection.range s.selection.repository })
      ⟨h.range, h.deps⟩ hrange
    rcases hcases with ⟨-, -, hcoordinator, hfinal⟩ | ⟨hnone, -⟩
    · exact ⟨hfinal.trans (Hook.final_set _ _ _), hcoordinator⟩
    · exact absurd (hnone rfl) hmounted

/-! ## A visit

A run with a change of the range, a choice of a repository and an ingest, which ends while the dashboard
is refreshed.
-/

/-- What the browser of a visit converts. -/
def visitor : Runtime := ⟨fun _ => .nan, fun _ => lit "[object Object]", fun _ => .nan, 0⟩

/-- A visit: another range is clicked, its list arrives, a repository of it is chosen and loaded, and an
ingest ends. -/
def visit : List Action := [
  .clickRange (lit "7d"),
  .listed 2 (.inl [.object [(lit "node_id", .string (lit "R_1"))]]),
  .render,
  .settle 2 (.inl (.object [])),
  .react 2,
  .chooseRepository (lit "R_1"),
  .settle 3 (.inl (.object [])),
  .react 3,
  .deliver .ingestDone,
  .render,
  .effects]

/-- The page after the visit. -/
def visited : Option State := Runs.run (step visitor) (State.initial (lit "?x=1")) visit

/-- Every step of the visit can be taken. -/
theorem visited_isSome : visited.isSome = true := by decide

/-- At the end of the visit the dashboard is refreshing, and the request that the ingest started is still to
be answered. -/
theorem visited_waits :
    ∃ r, (visited.get visited_isSome).coordinator.requests
        (visited.get visited_isSome).coordinator.requestId = some r ∧
      r.status ≠ .handled ∧ r.selection = (visited.get visited_isSome).selection := by
  have hclick : lit "7d" ≠ (State.initial (lit "?x=1")).selection.range := by decide
  have hguarded : Runs.Guarded (step visitor) RangeChanges (State.initial (lit "?x=1")) visit :=
    ⟨hclick, fun _ _ => ⟨trivial, fun _ _ => ⟨trivial, fun _ _ => ⟨trivial, fun _ _ => ⟨trivial, fun _ _ =>
      ⟨trivial, fun _ _ => ⟨trivial, fun _ _ => ⟨trivial, fun _ _ => ⟨trivial, fun _ _ => ⟨trivial, fun _ _ =>
        ⟨trivial, fun _ _ => trivial⟩⟩⟩⟩⟩⟩⟩⟩⟩⟩⟩
  have hrefreshing : ¬ (visited.get visited_isSome).dashboard.final.phase.Terminal := id
  exact (dashboard_waits (Option.some_get visited_isSome).symm (by decide)).1 hguarded hrefreshing

end Ghpulse.Web.App
