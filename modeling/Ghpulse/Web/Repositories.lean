import Ghpulse.Library.Js

/-!
# The options of the repository filter

The filter offers the repositories of the selected range. A repository that is selected and not among them
is offered too, under the name that the page remembers.

The id of a row is a text, as in every answer of the server; any other value counts as no id. A lookup in the
history finds own fields only: what `Object.prototype` would add has no own fields and no name, and makes
the same option.

Reference: `src/app.jsx` (`mergeRepositoryHistory`, `repositoryOptionsForSelection`).
-/

open Python Js

namespace Ghpulse.Web

/-- `repository.node_id`; empty where a row is skipped. -/
def nodeId (repository : Value) : Str :=
  match repository.get (lit "node_id") with
  | .string id => id
  | _ => []

/-- `{...left, ...right}`. -/
def spread (left right : Value) : Value :=
  .object (right.fields.foldl (fun fields p => setField p.1 p.2 fields) left.fields)

/-- `mergeRepositoryHistory`. -/
def mergeRepositoryHistory (history : List (Str × Value)) (repositories : List Value) : List (Str × Value) :=
  repositories.foldl (fun next repository =>
    -- a field of that name would set the prototype
    if nodeId repository = [] ∨ nodeId repository = lit "__proto__" then next
    else setField (nodeId repository) (spread (field (nodeId repository) next) repository) next) history

/-- The loop of `repositoryOptionsForSelection`: the first row of each id. -/
def firstRows : List Str → List Value → List Value
  | _, [] => []
  | seen, repository :: rows =>
    if nodeId repository = [] ∨ nodeId repository ∈ seen then firstRows seen rows
    else repository :: firstRows (nodeId repository :: seen) rows

/-- The option of a repository that is not in the selected range. -/
def unavailableOption (js : Runtime) (activeRepository : Str) (history : List (Str × Value)) : Value :=
  let remembered := (field activeRepository history).or (.object [(lit "node_id", .string activeRepository)])
  let name := (remembered.get (lit "name_with_owner")).or (.string activeRepository)
  .object (setField (lit "unavailable") (.bool true)
    (setField (lit "name_with_owner") (.string (toText js name ++ lit " · unavailable in selected range"))
      (setField (lit "node_id") (.string activeRepository) remembered.fields)))

/-- `repositoryOptionsForSelection`. -/
def repositoryOptionsForSelection (js : Runtime) (repositories : List Value) (activeRepository : Str)
    (history : List (Str × Value)) : List Value :=
  let options := firstRows [] repositories
  if activeRepository ≠ [] ∧ activeRepository ∉ options.map nodeId then
    options ++ [unavailableOption js activeRepository history]
  else options

/-! ## The rows

The first row of an id counts, and rows without an id are skipped.
-/

theorem nodeId_firstRows (seen : List Str) (rows : List Value) :
    ((firstRows seen rows).map nodeId).Nodup ∧
      ∀ id, id ∈ (firstRows seen rows).map nodeId ↔ id ∈ rows.map nodeId ∧ id ≠ [] ∧ id ∉ seen := by
  induction rows generalizing seen with
  | nil =>
    exact ⟨List.nodup_nil, fun id =>
      ⟨fun h => absurd h List.not_mem_nil, fun h => absurd h.1 List.not_mem_nil⟩⟩
  | cons repository rows ih =>
    unfold firstRows
    split_ifs with h
    · refine ⟨(ih seen).1, fun id => ?_⟩
      rw [(ih seen).2 id, List.map_cons, List.mem_cons]
      constructor
      · exact fun hid => ⟨Or.inr hid.1, hid.2⟩
      · rintro ⟨rfl | hid, hne, hseen⟩
        · exact absurd h (not_or.mpr ⟨hne, hseen⟩)
        · exact ⟨hid, hne, hseen⟩
    · rw [not_or] at h
      obtain ⟨hnodup, hmem⟩ := ih (nodeId repository :: seen)
      rw [List.map_cons, List.nodup_cons]
      refine ⟨⟨fun hid => ((hmem _).mp hid).2.2 List.mem_cons_self, hnodup⟩, fun id => ?_⟩
      rw [List.mem_cons, hmem, List.map_cons, List.mem_cons, List.mem_cons, not_or]
      by_cases hid : id = nodeId repository
      · subst hid
        exact ⟨fun _ => ⟨Or.inl rfl, h⟩, fun _ => Or.inl rfl⟩
      · exact ⟨fun hor => (hor.resolve_left hid).imp Or.inr fun hand => ⟨hand.1, hand.2.2⟩,
          fun hand => Or.inr ⟨hand.1.resolve_left hid, hand.2.1, hid, hand.2.2⟩⟩

/-! ## The options

The options are the rows of the range and at most one more, which stands for the selected repository.
-/

theorem field_setField_self (key : Str) (value : Value) (fields : List (Str × Value)) :
    field key (setField key value fields) = value := by
  induction fields with
  | nil => exact if_pos rfl
  | cons p fields ih =>
    obtain ⟨k, v⟩ := p
    unfold setField
    split_ifs with h
    · exact if_pos h
    · exact (if_neg h).trans ih

theorem field_setField_of_ne {key key' : Str} (h : key' ≠ key) (value : Value)
    (fields : List (Str × Value)) : field key' (setField key value fields) = field key' fields := by
  induction fields with
  | nil => exact if_neg (Ne.symm h)
  | cons p fields ih =>
    obtain ⟨k, v⟩ := p
    unfold setField
    split_ifs with hk
    · have hne : k ≠ key' := fun he => h (he ▸ hk)
      exact (if_neg hne).trans (if_neg hne).symm
    · unfold field
      rw [ih]

theorem nodeId_unavailableOption (js : Runtime) (activeRepository : Str) (history : List (Str × Value)) :
    nodeId (unavailableOption js activeRepository history) = activeRepository := by
  have hget : (unavailableOption js activeRepository history).get (lit "node_id") =
      .string activeRepository := by
    unfold unavailableOption
    change field (lit "node_id") (setField _ _ (setField _ _ (setField _ _ _))) = _
    rw [field_setField_of_ne (by decide), field_setField_of_ne (by decide), field_setField_self]
  rw [nodeId, hget]

/-- Each repository of the range is offered once, and so is the active one. -/
theorem nodeId_options (js : Runtime) (repositories : List Value) (activeRepository : Str)
    (history : List (Str × Value)) :
    ((repositoryOptionsForSelection js repositories activeRepository history).map nodeId).Nodup ∧
      ∀ id, id ∈ (repositoryOptionsForSelection js repositories activeRepository history).map nodeId ↔
        id ≠ [] ∧ (id ∈ repositories.map nodeId ∨ id = activeRepository) := by
  obtain ⟨hnodup, hmem⟩ := nodeId_firstRows [] repositories
  have hrow (id : Str) :
      id ∈ (firstRows [] repositories).map nodeId ↔ id ∈ repositories.map nodeId ∧ id ≠ [] :=
    (hmem id).trans ⟨fun h => ⟨h.1, h.2.1⟩, fun h => ⟨h.1, h.2, List.not_mem_nil⟩⟩
  unfold repositoryOptionsForSelection
  dsimp only
  split_ifs with h
  · rw [List.map_append, List.map_singleton, nodeId_unavailableOption]
    refine ⟨List.nodup_append.mpr ⟨hnodup, List.nodup_singleton _, ?_⟩, fun id => ?_⟩
    · rintro id hid other hother rfl
      exact h.2 (List.mem_singleton.mp hother ▸ hid)
    · rw [List.mem_append, hrow, List.mem_singleton]
      constructor
      · rintro (hid | rfl)
        · exact ⟨hid.2, Or.inl hid.1⟩
        · exact ⟨h.1, Or.inr rfl⟩
      · rintro ⟨hne, hid | rfl⟩
        · exact Or.inl ⟨hid, hne⟩
        · exact Or.inr rfl
  · refine ⟨hnodup, fun id => (hrow id).trans ⟨fun hid => ⟨hid.2, Or.inl hid.1⟩, ?_⟩⟩
    rintro ⟨hne, hid | rfl⟩
    · exact ⟨hid, hne⟩
    · by_contra hnot
      exact h ⟨hne, fun hid => hnot ((hrow id).mp hid)⟩

end Ghpulse.Web
