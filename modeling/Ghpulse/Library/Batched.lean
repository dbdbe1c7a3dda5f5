import Mathlib.Data.List.Basic

/-!
# Batched state

A state variable of a user interface, whose updates wait in a queue until the interface is rendered. The
updates of an urgent event are rendered at once, and skip the others; a skipped update is applied later, in
its own place.

The value that is shown and the value that will be are different things here: `value` is what was rendered
last, and `final` is where the queue leads. While updates wait, the two may differ.
-/

namespace Batched

variable {α : Type*}

/-- An update that waits. -/
structure Update (α : Type*) where
  urgent : Bool
  change : α → α

/-- A state variable: the value below the queue, the queue, and the value that was rendered last. -/
structure Hook (α : Type*) where
  base : α
  queue : List (Update α)
  value : α

/-- Apply updates in their order. -/
def applyAll (a : α) (updates : List (Update α)) : α := updates.foldl (fun a u => u.change a) a

namespace Hook

/-- A variable that has just been mounted. -/
def new (a : α) : Hook α := ⟨a, [], a⟩

/-- Call the setter with a function. -/
def update (h : Hook α) (urgent : Bool) (change : α → α) : Hook α :=
  { h with queue := h.queue ++ [⟨urgent, change⟩] }

/-- Call the setter with a value. -/
def set (h : Hook α) (urgent : Bool) (a : α) : Hook α := h.update urgent fun _ => a

/-- The value when everything that waits is rendered. -/
def final (h : Hook α) : α := applyAll h.base h.queue

/-- Render everything that waits. -/
def render (h : Hook α) : Hook α := ⟨h.final, [], h.final⟩

/-- Render the urgent updates; the queue stays, since others may stand before them. -/
def renderUrgent (h : Hook α) : Hook α :=
  { h with value := applyAll h.base (h.queue.filter Update.urgent) }

variable (h : Hook α)

/-- A new hook has its value. -/
@[simp] theorem final_new (a : α) : (new a).final = a := rfl

/-- An update changes what the hook ends at, urgent or not. -/
@[simp] theorem final_update (urgent : Bool) (change : α → α) :
    (h.update urgent change).final = change h.final := by
  rw [final, update, applyAll, List.foldl_append]
  rfl

/-- A set decides what the hook ends at. -/
@[simp] theorem final_set (urgent : Bool) (a : α) : (h.set urgent a).final = a := h.final_update _ _

/-- A render does not change what the hook ends at. -/
@[simp] theorem final_render : h.render.final = h.final := rfl

/-- Nor does a render of the urgent updates alone. -/
@[simp] theorem final_renderUrgent : h.renderUrgent.final = h.final := rfl

/-- After a render of all updates the value is what the hook ends at. -/
@[simp] theorem value_render : h.render.value = h.final := rfl

/-- An update that is not rendered leaves the value. -/
@[simp] theorem value_update (urgent : Bool) (change : α → α) :
    (h.update urgent change).value = h.value := rfl

/-- A set that is not rendered leaves the value. -/
@[simp] theorem value_set (urgent : Bool) (a : α) : (h.set urgent a).value = h.value := rfl

/-! ## What stands below the queue

A variable is in step when it shows the value below its queue as soon as nothing waits in it.
-/

/-- With nothing waiting, what was rendered is the value. -/
def Synced : Prop := h.queue = [] → h.value = h.base

variable {h}

/-- A new hook is in step. -/
theorem Synced.new (a : α) : (Hook.new a).Synced := fun _ => rfl

/-- An update keeps a hook in step. -/
theorem Synced.update (urgent : Bool) (change : α → α) : (h.update urgent change).Synced :=
  fun hqueue => absurd hqueue (List.append_ne_nil_of_right_ne_nil _ (List.cons_ne_nil _ _))

/-- A render puts a hook in step. -/
theorem Synced.render : h.render.Synced := fun _ => rfl

/-- A render of the urgent updates keeps it in step. -/
theorem Synced.renderUrgent : h.renderUrgent.Synced := by
  intro hqueue
  have hqueue : h.queue = [] := hqueue
  change applyAll h.base (h.queue.filter Update.urgent) = h.base
  rw [hqueue]
  rfl

/-- A hook in step that has nothing queued shows what it ends at. -/
theorem Synced.value_eq (hs : h.Synced) (hqueue : h.queue = []) : h.value = h.final := by
  rw [hs hqueue, final, hqueue]
  rfl

/-! ## A property of every value

What holds of everything that is rendered next. A render may skip updates, so each waiting one has to
establish the property by itself; those that come before an urgent one do not matter, since no render
skips that.
-/

/-- Each update establishes a property, whatever was there before. -/
def Establish (P : α → Prop) (updates : List (Update α)) : Prop := ∀ u ∈ updates, ∀ a, P (u.change a)

/-- No update at all preserves every property. -/
theorem Establish.nil (P : α → Prop) : Establish P [] := fun _ hu => absurd hu List.not_mem_nil

/-- A value with the property has it after the updates. -/
theorem Establish.applyAll {P : α → Prop} {updates : List (Update α)} (hupdates : Establish P updates)
    {a : α} (ha : P a) : P (applyAll a updates) := by
  induction updates generalizing a with
  | nil => exact ha
  | cons u updates ih =>
    exact ih (fun v hv => hupdates v (List.mem_cons_of_mem _ hv)) (hupdates u List.mem_cons_self a)

/-- One more update that establishes the property. -/
theorem Establish.concat {P : α → Prop} {updates : List (Update α)} (hupdates : Establish P updates)
    {u : Update α} (hu : ∀ a, P (u.change a)) : Establish P (updates ++ [u]) := by
  intro v hv
  rcases List.mem_append.mp hv with hv | hv
  · exact hupdates v hv
  · exact List.mem_singleton.mp hv ▸ hu

/-- Whatever is rendered next has a property: the value below the queue has it, or an urgent update
establishes it; and so do the updates after that. -/
def Ensures (h : Hook α) (P : α → Prop) : Prop :=
  (P h.base ∧ Establish P h.queue) ∨
    ∃ before u after, h.queue = before ++ u :: after ∧ u.urgent = true ∧ Establish P (u :: after)

variable {P Q : α → Prop}

/-- A weaker property. -/
theorem Ensures.mono (he : h.Ensures P) (hPQ : ∀ a, P a → Q a) : h.Ensures Q := by
  rcases he with ⟨hbase, hqueue⟩ | ⟨before, u, after, hqueue, hurgent, hu⟩
  · exact Or.inl ⟨hPQ _ hbase, fun v hv a => hPQ _ (hqueue v hv a)⟩
  · exact Or.inr ⟨before, u, after, hqueue, hurgent, fun v hv a => hPQ _ (hu v hv a)⟩

/-- A new hook has the property of its value. -/
theorem Ensures.new {a : α} (ha : P a) : (Hook.new a).Ensures P := Or.inl ⟨ha, Establish.nil P⟩

/-- What a hook ends at has the property. -/
theorem Ensures.final (he : h.Ensures P) : P h.final := by
  rcases he with ⟨hbase, hqueue⟩ | ⟨before, u, after, hqueue, -, hu⟩
  · exact hqueue.applyAll hbase
  · rw [Hook.final, hqueue, Batched.applyAll, List.foldl_append, List.foldl_cons]
    exact Establish.applyAll (fun v hv => hu v (List.mem_cons_of_mem _ hv)) (hu u List.mem_cons_self _)

/-- So has the value after a render of the urgent updates. -/
theorem Ensures.value_renderUrgent (he : h.Ensures P) : P h.renderUrgent.value := by
  change P (Batched.applyAll h.base (h.queue.filter Update.urgent))
  rcases he with ⟨hbase, hqueue⟩ | ⟨before, u, after, hqueue, hurgent, hu⟩
  · exact Establish.applyAll (fun v hv => hqueue v (List.mem_of_mem_filter hv)) hbase
  · rw [hqueue, List.filter_append, List.filter_cons_of_pos hurgent, Batched.applyAll, List.foldl_append,
      List.foldl_cons]
    exact Establish.applyAll (fun v hv => hu v (List.mem_cons_of_mem _ (List.mem_of_mem_filter hv)))
      (hu u List.mem_cons_self _)

/-- A value with the property may be set. -/
theorem Ensures.set (he : h.Ensures P) {urgent : Bool} {a : α} (ha : P a) : (h.set urgent a).Ensures P := by
  rcases he with ⟨hbase, hqueue⟩ | ⟨before, u, after, hqueue, hurgent, hu⟩
  · exact Or.inl ⟨hbase, hqueue.concat fun _ => ha⟩
  · refine Or.inr ⟨before, u, after ++ [⟨urgent, fun _ => a⟩], ?_, hurgent, ?_⟩
    · rw [Hook.set, Hook.update, hqueue, List.append_assoc]
      rfl
    · rw [← List.cons_append]
      exact hu.concat fun _ => ha

/-- An urgent update that establishes a property needs nothing of what is there. -/
theorem Ensures.of_urgent {a : α} (ha : P a) : (h.set true a).Ensures P :=
  Or.inr ⟨h.queue, ⟨true, fun _ => a⟩, [], rfl, rfl, fun _ hu _ => List.mem_singleton.mp hu ▸ ha⟩

/-- A render keeps the property. -/
theorem Ensures.render (he : h.Ensures P) : h.render.Ensures P := Or.inl ⟨he.final, Establish.nil P⟩

/-- A render of the urgent updates keeps it. -/
theorem Ensures.renderUrgent (he : h.Ensures P) : h.renderUrgent.Ensures P := he

end Hook

end Batched
