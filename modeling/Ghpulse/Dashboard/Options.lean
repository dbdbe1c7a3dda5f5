import Ghpulse.Dashboard.Readout

/-!
# The repository filter

`GET /api/repositories` offers the repositories that a dashboard can be narrowed to. What it promises is
about the requests that follow: each option can be selected and shows something, what is not offered shows
nothing, and the counts of the options add up to those of the whole dashboard (`options_partition`). Under
the range `all` every scope has a window of its own, so the argument rests on the events that two windows
have in common (`Agree`).

References: `backend/api.py` (`_repository_options`), `backend/api_dashboard.py`.

A request for a narrowed dashboard resolves its own window: under `all` it starts at the first event of
that repository, which may be later than the first event of all. The two windows still hold the same
events of the repository, and this is what the counts depend on.
-/

open Python Ghpulse.Ingest

namespace Ghpulse.Dashboard

variable {ρ : Type}

/-- What `_repository_options` returns. -/
structure Options where
  range : Str
  repositories : List RepositoryOption
  generatedAt : Instant

/-- `_repository_options`; the clock is read for `generated_at` first. -/
def repositoryOptions (printable : CodePoint → Bool) (collate : Str → Str → Bool) (db : Db)
    (clock : ReadClock) (rng : Str) : Except Failure Options := do
  let window ← buildWindow printable db clock rng none
  let ids := eventRepositoryIds collate db window none
  if ids = [] then return ⟨rng, [], clock.startedAt⟩
  else return ⟨rng, repositoryRows collate db ids, clock.startedAt⟩

/-- The options are the repositories with an event in the window of the range. -/
theorem repositoryOptions_eq_ok {printable : CodePoint → Bool} {collate : Str → Str → Bool} {db : Db}
    {clock : ReadClock} {rng : Str} {options : Options} :
    repositoryOptions printable collate db clock rng = .ok options ↔
      ∃ window, buildWindow printable db clock rng none = .ok window ∧ options =
        ⟨rng, repositoryRows collate db (eventRepositoryIds collate db window none), clock.startedAt⟩ := by
  unfold repositoryOptions
  rw [bind_eq_ok]
  refine exists_congr fun window => and_congr_right fun _ => ?_
  dsimp only
  split_ifs with hids
  · rw [hids, repositoryRows, if_pos rfl]
    exact ⟨fun h => (Except.ok.inj h).symm, fun h => h ▸ rfl⟩
  · exact ⟨fun h => (Except.ok.inj h).symm, fun h => h ▸ rfl⟩

/-! ## Windows that agree

`Agree` is about the events of a scope, and everything that a dashboard reads of a window follows it.
-/

/-- Two windows contain the same events of a scope. -/
def Agree (db : Db) (repository : Option Str) (window window' : RangeWindow) : Prop :=
  ∀ e ∈ eventUnion db, inScope repository e.repositoryId = true →
    inside window.start window.stop e.eventAt = inside window'.start window'.stop e.eventAt

section Agree

variable {db : Db} {repository : Option Str} {window window' : RangeWindow}
  (h : Agree db repository window window')
include h

/-- They count the same rows. -/
theorem Agree.rowsIn (panel : Panel) (kind : Kind) :
    Dashboard.rowsIn db repository panel kind window.start window.stop =
      Dashboard.rowsIn db repository panel kind window'.start window'.stop := by
  rw [← countP_eventUnion, ← countP_eventUnion]
  refine List.countP_congr fun e he => ?_
  unfold isCounted
  cases hscope : inScope repository e.repositoryId with
  | false => simp
  | true => rw [h e he hscope]

/-- They show the same repositories. -/
theorem Agree.active (id : Str) :
    (contentOf db).Active repository window.start window.stop id ↔
      (contentOf db).Active repository window'.start window'.stop id := by
  unfold Content.Active
  rw [← eventUnion_eq]
  refine exists_congr fun e => and_congr_right fun he => and_congr_right fun hid => ?_
  refine and_congr_right fun hscope => ?_
  rw [h e he (hid ▸ hscope)]

/-- They contain the same creations. -/
theorem Agree.inside_opened {c : Columns ρ} {items : List ρ} (panel : Panel)
    (time : Kind → ρ → Option Instant) (hstored : Stored db c items)
    (hrows : ∀ repository kind start stop, Dashboard.rowsIn db repository panel kind start stop =
      rowsWith db c items (time kind) repository start stop)
    (hcreated : ∀ r, time .opened r = some (c.createdAt r)) {r : ρ} (hr : r ∈ items)
    (hscope : inScope repository (c.repositoryId r) = true) :
    inside window.start window.stop (some (c.createdAt r)) =
      inside window'.start window'.stop (some (c.createdAt r)) := by
  obtain ⟨e, he, hid, hat⟩ := exists_event panel time hstored hrows hr (hcreated r)
  rw [← hat]
  exact h e he (hid ▸ hscope)

/-- They show the same open items. -/
theorem Agree.openIn (panel : Panel) :
    (contentOf db).openIn repository panel window.start window.stop =
      (contentOf db).openIn repository panel window'.start window'.stop := by
  cases panel with
  | issues =>
    refine List.countP_congr fun r hr => ?_
    cases hscope : inScope repository r.repositoryId with
    | false => simp
    | true =>
      rw [show inside window.start window.stop (some r.createdAt) = _ from
        h.inside_opened .issues issueTime (stored_issues db) (fun _ _ _ _ => rfl) (fun _ => rfl) hr hscope]
      rfl
  | pullRequests =>
    refine List.countP_congr fun r hr => ?_
    cases hscope : inScope repository r.repositoryId with
    | false => simp
    | true =>
      rw [show inside window.start window.stop (some r.createdAt) = _ from
        h.inside_opened .pullRequests pullRequestTime (stored_pullRequests db) (fun _ _ _ _ => rfl)
          (fun _ => rfl) hr hscope]
      rfl

end Agree

/-- The window of `all` holds the events of its scope before now. -/
theorem inside_allWindow {db : Db} {clock : ReadClock} {delta : ℤ} {rng : Str}
    {repository : Option Str} {window : RangeWindow}
    (h : allWindow db clock delta rng repository = .ok window) {e : Event} (he : e ∈ eventUnion db)
    (hscope : inScope repository e.repositoryId = true) :
    inside window.start window.stop e.eventAt = e.eventAt.any fun t => decide (t < clock.now) := by
  rw [inside, stop_of_allWindow h]
  cases ht : e.eventAt with
  | none => rfl
  | some t =>
    have hmem : ∃ e ∈ eventUnion db, inScope repository e.repositoryId = true ∧ e.eventAt = some t :=
      ⟨e, he, hscope, ht⟩
    have hstart : window.start ≤ t := by
      unfold allWindow at h
      cases hbounds : eventBounds db repository with
      | none =>
        rw [eventBounds, List.min?_eq_none_iff] at hbounds
        rw [← mem_scope_iff, hbounds] at hmem
        cases hmem
      | some start =>
        rw [hbounds] at h
        dsimp only at h
        split_ifs at h
        obtain rfl := Except.ok.inj h
        exact (eventBounds_eq_some_iff.mp hbounds).2 hmem
    simp [hstart]

/-- Every window of the range that a scope resolves to holds the events of the scope that the window of
the whole database holds. -/
theorem agree_of_buildWindow {printable : CodePoint → Bool} {db : Db} {clock : ReadClock} {rng : Str}
    {id : Str} {window window' : RangeWindow}
    (h : buildWindow printable db clock rng none = .ok window)
    (h' : buildWindow printable db clock rng (some id) = .ok window') :
    Agree db (some id) window window' := by
  obtain ⟨delta, hdelta, h⟩ := bind_eq_ok.mp h
  obtain ⟨delta', hdelta', h'⟩ := bind_eq_ok.mp h'
  obtain rfl : delta = delta' := Except.ok.inj (hdelta.symm.trans hdelta')
  split_ifs at h h' with hall
  · intro e he hscope
    rw [inside_allWindow h he rfl, inside_allWindow h' he hscope]
  · rw [h] at h'
    obtain rfl := Except.ok.inj h'
    exact fun _ _ _ => rfl

/-! ## Repositories without events

An option is a repository with an event in the window. Since each event belongs to a series of its panel,
it is also one for which some count is positive.
-/

/-- The kind of an event belongs to its panel. -/
theorem kind_mem_keys {db : Db} {e : Event} (h : e ∈ eventUnion db) : e.kind ∈ e.panel.keys := by
  unfold eventUnion at h
  rcases List.mem_append.mp h with h | h
  · obtain ⟨arm, harm, he⟩ := List.mem_flatMap.mp h
    obtain ⟨x, -, rfl⟩ := List.mem_map.mp he
    have hall : ∀ arm ∈ issueArms, arm.kind ∈ arm.panel.keys := by decide
    exact hall arm harm
  · obtain ⟨arm, harm, he⟩ := List.mem_flatMap.mp h
    obtain ⟨x, -, rfl⟩ := List.mem_map.mp he
    have hall : ∀ arm ∈ pullRequestArms, arm.kind ∈ arm.panel.keys := by decide
    exact hall arm harm

section Active

variable {db : Db} {repository : Option Str} {start stop : Instant}

/-- A repository is active when some series of it counts something. -/
theorem active_iff {id : Str} : (contentOf db).Active (some id) start stop id ↔
    ∃ panel, ∃ kind ∈ panel.keys, 0 < Dashboard.rowsIn db (some id) panel kind start stop := by
  unfold Content.Active
  simp only [← countP_eventUnion, ← eventUnion_eq, List.countP_pos_iff]
  constructor
  · rintro ⟨e, he, rfl, hscope, hinside⟩
    exact ⟨e.panel, e.kind, kind_mem_keys he, e, he, by simp [isCounted, hscope, hinside]⟩
  · rintro ⟨panel, kind, -, e, he, hcounted⟩
    rw [isCounted, Bool.and_eq_true, Bool.and_eq_true] at hcounted
    obtain ⟨⟨-, hscope⟩, hinside⟩ := hcounted
    have hid : e.repositoryId = id := of_decide_eq_true hscope
    exact ⟨e, he, hid, hid ▸ hscope, hinside⟩

/-- An active repository of the whole database is active on its own. -/
theorem active_none_iff {id : Str} : (contentOf db).Active none start stop id ↔
    (contentOf db).Active (some id) start stop id :=
  exists_congr fun _ => and_congr_right fun _ => and_congr_right fun _ =>
    and_congr_left fun _ => iff_of_true rfl (decide_eq_true rfl)

/-- Of a scope, only its own repository is active. -/
theorem Content.Active.id_eq {c : Content} {id id' : Str} (h : c.Active (some id) start stop id') :
    id' = id := by
  obtain ⟨e, -, -, hscope, -⟩ := h
  exact of_decide_eq_true hscope

end Active

/-- Repositories are told apart by their ids. -/
theorem eq_of_contentOf {db : Db} {r r' : RepositoryColumns} (hr : r ∈ (contentOf db).repositories)
    (hr' : r' ∈ (contentOf db).repositories) (hid : r.nodeId = r'.nodeId) : r = r' := by
  have hnodup : ((contentOf db).repositories.map RepositoryColumns.nodeId).Nodup := by
    rw [contentOf, List.map_map]
    exact db.repositories.nodup
  exact List.inj_on_of_nodup_map hnodup hr hr' hid

/-! ## Sums over the options

The whole dashboard counts the rows of every stored repository, and the options leave out only those that
contribute nothing.
-/

/-- The rows of a table that satisfy a condition are in the scope of one stored repository each. -/
theorem countP_additive {db : Db} {c : Columns ρ} {items : List ρ} (h : Stored db c items)
    (p : ρ → Bool) : (items.countP fun r => inScope none (c.repositoryId r) && p r) =
      (db.repositories.rows.map fun row =>
        items.countP fun r => inScope (some row.nodeId) (c.repositoryId r) && p r).sum := by
  -- any condition is that of a timestamp
  have hinside (r : ρ) : inside 0 1 (if p r then some 0 else none) = p r := by
    cases p r <;> rfl
  have hsum := rowsWith_additive h (fun r => if p r then some 0 else none) 0 1
  simp only [rowsWith_eq h, hinside] at hsum
  exact hsum

/-- The open items of a window are those of the single repositories. -/
theorem openIn_additive (db : Db) (panel : Panel) (start stop : Instant) :
    (contentOf db).openIn none panel start stop =
      (db.repositories.rows.map fun r =>
        (contentOf db).openIn (some r.nodeId) panel start stop).sum := by
  cases panel with
  | issues =>
    have hsum := countP_additive (stored_issues db) fun r =>
      inside start stop (some r.createdAt) && decide (r.state = lit "OPEN")
    simp only [← Bool.and_assoc] at hsum
    exact hsum
  | pullRequests =>
    have hsum := countP_additive (stored_pullRequests db) fun r =>
      inside start stop (some r.createdAt) && decide (r.state = lit "OPEN")
    simp only [← Bool.and_assoc] at hsum
    exact hsum

/-- Only what was opened is open. -/
theorem openIn_le (c : Content) (repository : Option Str) (panel : Panel) (start stop : Instant) :
    c.openIn repository panel start stop ≤ c.rowsIn repository panel .opened start stop := by
  cases panel with
  | issues =>
    refine List.countP_mono_left fun r _ h => ?_
    rw [Bool.and_eq_true] at h
    exact h.1
  | pullRequests =>
    refine List.countP_mono_left fun r _ h => ?_
    rw [Bool.and_eq_true] at h
    exact h.1

/-- Where nothing happened, nothing is counted. -/
theorem eq_zero_of_not_active {db : Db} {id : Str} {start stop : Instant}
    (h : ¬(contentOf db).Active (some id) start stop id) (panel : Panel) :
    (contentOf db).openIn (some id) panel start stop = 0 ∧ ∀ kind ∈ panel.keys,
      (contentOf db).rowsIn (some id) panel kind start stop = 0 := by
  have hrows : ∀ kind ∈ panel.keys, (contentOf db).rowsIn (some id) panel kind start stop = 0 := by
    intro kind hkind
    rw [← rowsIn_eq]
    exact Nat.eq_zero_of_not_pos fun hpos => h (active_iff.mpr ⟨panel, kind, hkind, hpos⟩)
  have hopened : Kind.opened ∈ panel.keys := by cases panel <;> decide
  exact ⟨Nat.eq_zero_of_le_zero ((openIn_le _ _ _ _ _).trans (hrows _ hopened).le), hrows⟩

/-- What vanishes outside the options adds up over them. -/
theorem sum_options {collate : Str → Str → Bool} {db : Db} {ids : List Str} (f : Str → ℕ)
    (hzero : ∀ r ∈ db.repositories.rows, r.nodeId ∉ ids → f r.nodeId = 0) :
    ((repositoryRows collate db ids).map fun o => f o.nodeId).sum =
      (db.repositories.rows.map fun r => f r.nodeId).sum := by
  rw [repositoryRows_eq, List.map_map, ((List.mergeSort_perm _ _).map _).sum_eq]
  generalize db.repositories.rows = rows at hzero
  induction rows with
  | nil => rfl
  | cons r rows ih =>
    have hrest := ih fun x hx => hzero x (List.mem_cons_of_mem r hx)
    rw [List.map_cons, List.sum_cons, ← hrest, List.filter_cons]
    split_ifs with hid
    · rfl
    · rw [hzero r List.mem_cons_self fun hmem => hid (decide_eq_true hmem), Nat.zero_add]

/-! ## The requests that follow

What the filter promises, put together for one reading of the clock.
-/

/-- What is offered partitions the whole dashboard; `answer` is the answer to a dashboard request by its
repository. -/
structure Partitions (db : Db) (answer : Option Str → Except Failure Body)
    (options : List RepositoryOption) : Prop where
  /-- The whole dashboard lists the options. -/
  listed : ∀ body, answer none = .ok body → body.repositories = options
  /-- No option is refused. -/
  selectable : ∀ o ∈ options, ∀ status detail, answer (some o.nodeId) ≠ .error (.http status detail)
  /-- An option lists itself alone, and counts something. -/
  shown : ∀ o ∈ options, ∀ body, answer (some o.nodeId) = .ok body →
    body.repositories = [o] ∧ ∃ panel, ∃ kind ∈ panel.keys, 0 < body.totals panel kind
  /-- Every other repository counts nothing. -/
  hidden : ∀ r ∈ db.repositories.rows, r.nodeId ∉ options.map RepositoryOption.nodeId →
    ∀ body, answer (some r.nodeId) = .ok body → body.repositories = [] ∧
      ∀ panel, body.currentlyOpen panel = 0 ∧ ∀ kind ∈ panel.keys, body.totals panel kind = 0
  /-- The counts of the options add up. -/
  sums : ∀ (body : Body) (bodies : Str → Body), answer none = .ok body →
    (∀ o ∈ options, answer (some o.nodeId) = .ok (bodies o.nodeId)) → ∀ panel,
      body.currentlyOpen panel = (options.map fun o => (bodies o.nodeId).currentlyOpen panel).sum ∧
      ∀ kind ∈ panel.keys,
        body.totals panel kind = (options.map fun o => (bodies o.nodeId).totals panel kind).sum

/-- An answer reports the content of the database in its window. -/
theorem reports_of_dashboard {printable : CodePoint → Bool} {collate : Str → Str → Bool} {db : Db}
    {clock : ReadClock} {rng : Str} {repository : Option Str} {body : Body}
    (h : dashboard printable collate db clock rng repository = .ok body) :
    ∃ window, buildWindow printable db clock rng repository = .ok window ∧
      Reports (contentOf db) window repository body := by
  obtain ⟨-, window, bounds, hwindow, hbounds, rfl⟩ := dashboard_eq_ok.mp h
  have hbuild := dashboardBuild_eq collate db window repository clock.startedAt
  rw [hbounds] at hbuild
  exact ⟨window, hwindow, reports_of_build hbuild⟩

section Partition

variable {printable : CodePoint → Bool} {collate : Str → Str → Bool} {db : Db} {clock : ReadClock}
  {rng : Str} {window : RangeWindow} (hwindow : buildWindow printable db clock rng none = .ok window)
include hwindow

/-- A narrowed dashboard counts in the window of the whole one. -/
theorem reports_narrowed {id : Str} {body : Body}
    (h : dashboard printable collate db clock rng (some id) = .ok body) :
    (∀ panel, body.currentlyOpen panel =
        (contentOf db).openIn (some id) panel window.start window.stop ∧ ∀ kind ∈ panel.keys,
      body.totals panel kind = (contentOf db).rowsIn (some id) panel kind window.start window.stop) ∧
    (body.repositories.map RepositoryOption.nodeId).Nodup ∧
    ∀ o, o ∈ body.repositories ↔ ∃ r ∈ (contentOf db).repositories,
      (contentOf db).Active (some id) window.start window.stop r.nodeId ∧ o = optionOf r := by
  obtain ⟨window', hwindow', hreports⟩ := reports_of_dashboard h
  have hagree := agree_of_buildWindow hwindow hwindow'
  refine ⟨fun panel => ⟨?_, fun kind hkind => ?_⟩, hreports.distinct, fun o => ?_⟩
  · rw [hreports.currentlyOpen, hagree.openIn]
  · rw [hreports.totals panel kind hkind, ← rowsIn_eq, ← rowsIn_eq, hagree.rowsIn]
  · rw [hreports.listed]
    exact exists_congr fun r => and_congr_right fun _ => and_congr_left fun _ =>
      (hagree.active r.nodeId).symm

/-- A range that is accepted for the whole database is accepted for every scope. -/
theorem buildWindow_not_refused {repository : Option Str} {status : ℕ} {detail : Str} :
    buildWindow printable db clock rng repository ≠ .error (.http status detail) := by
  obtain ⟨delta, hdelta, -⟩ := bind_eq_ok.mp hwindow
  intro h
  unfold buildWindow at h
  rw [hdelta] at h
  change (if rng = lit "all" then allWindow db clock delta rng repository else _) = _ at h
  split_ifs at h with hall
  · unfold allWindow at h
    split at h
    · cases h
    · split_ifs at h
      cases h
  · split at h
    · cases h
    · cases h

/-- A stored repository is not refused. -/
theorem not_refused {id : Str} (hid : id ∈ (contentOf db).repositories.map RepositoryColumns.nodeId)
    (status : ℕ) (detail : Str) :
    dashboard printable collate db clock rng (some id) ≠ .error (.http status detail) := by
  have hvalid : ∀ f, validateRepository db (some id) = .error f → f = .raised nulError := by
    intro f hf
    rw [validateRepository, any_publicRepository, decide_eq_true hid, if_pos rfl] at hf
    split_ifs at hf
    exact (Except.error.inj hf).symm
  intro h
  unfold dashboard at h
  rcases bind_eq_error.mp h with herror | ⟨_, -, h⟩
  · cases hvalid _ herror
  · rcases bind_eq_error.mp h with herror | ⟨window', -, h⟩
    · exact buildWindow_not_refused hwindow herror
    · cases hbuild : dashboardBuild collate db window' (some id) clock.startedAt with
      | error e =>
        rw [hbuild] at h
        cases h
      | ok body =>
        rw [hbuild] at h
        cases h

end Partition

/-- The options of a range partition the dashboards that are requested at the same time: none is
refused, each shows itself alone and counts something, every other stored repository counts nothing, and the
counts of the options add up to those of the whole dashboard, which lists exactly them. -/
theorem options_partition {printable : CodePoint → Bool} {collate : Str → Str → Bool} {db : Db}
    {clock : ReadClock} {rng : Str} {options : Options}
    (h : repositoryOptions printable collate db clock rng = .ok options) :
    Partitions db (dashboard printable collate db clock rng) options.repositories := by
  obtain ⟨window, hwindow, rfl⟩ := repositoryOptions_eq_ok.mp h
  have hids (id : Str) : id ∈ eventRepositoryIds collate db window none ↔
      (contentOf db).Active (some id) window.start window.stop id :=
    mem_eventRepositoryIds.trans active_none_iff
  have hoption {o : RepositoryOption}
      (ho : o ∈ repositoryRows collate db (eventRepositoryIds collate db window none)) :
      ∃ r ∈ (contentOf db).repositories,
        (contentOf db).Active (some r.nodeId) window.start window.stop r.nodeId ∧ o = optionOf r := by
    obtain ⟨r, hr, hid, rfl⟩ := mem_repositoryRows.mp ho
    exact ⟨r, hr, (hids _).mp hid, rfl⟩
  refine ⟨?_, ?_, ?_, ?_, ?_⟩
  · intro body hbody
    obtain ⟨-, window', bounds, hwindow', -, rfl⟩ := dashboard_eq_ok.mp hbody
    obtain rfl := Except.ok.inj (hwindow'.symm.trans hwindow)
    rfl
  · intro o ho
    obtain ⟨r, hr, -, rfl⟩ := hoption ho
    exact not_refused hwindow (List.mem_map_of_mem hr)
  -- an option: its own dashboard lists it alone and counts something
  · intro o ho body hbody
    obtain ⟨r, hr, hactive, rfl⟩ := hoption ho
    obtain ⟨hcounts, hdistinct, hlisted⟩ := reports_narrowed hwindow hbody
    refine ⟨?_, ?_⟩
    · refine List.perm_singleton.mp ((List.perm_ext_iff_of_nodup (List.Nodup.of_map _ hdistinct)
        (List.nodup_singleton _)).mpr fun o => ?_)
      rw [hlisted, List.mem_singleton]
      constructor
      · rintro ⟨r', hr', hactive', rfl⟩
        rw [eq_of_contentOf hr' hr hactive'.id_eq]
      · rintro rfl
        exact ⟨r, hr, hactive, rfl⟩
    · obtain ⟨panel, kind, hkind, hpos⟩ := active_iff.mp hactive
      refine ⟨panel, kind, hkind, ?_⟩
      rw [(hcounts panel).2 kind hkind, ← rowsIn_eq]
      exact hpos
  -- not offered: nothing happened in it
  · intro r hr hnot body hbody
    obtain ⟨hcounts, -, hlisted⟩ := reports_narrowed hwindow hbody
    have hinactive : ¬(contentOf db).Active (some r.nodeId) window.start window.stop r.nodeId := by
      intro hactive
      have hmem : optionOf r.columns ∈
          repositoryRows collate db (eventRepositoryIds collate db window none) :=
        mem_repositoryRows.mpr
          ⟨r.columns, List.mem_map_of_mem hr, (hids r.nodeId).mpr hactive, rfl⟩
      exact hnot (List.mem_map_of_mem hmem)
    have hzero := eq_zero_of_not_active hinactive
    refine ⟨?_, fun panel => ⟨?_, fun kind hkind => ?_⟩⟩
    · refine List.eq_nil_iff_forall_not_mem.mpr fun o ho => ?_
      obtain ⟨r', -, hactive, -⟩ := (hlisted o).mp ho
      exact hinactive (hactive.id_eq ▸ hactive)
    · rw [(hcounts panel).1, (hzero panel).1]
    · rw [(hcounts panel).2 kind hkind, (hzero panel).2 kind hkind]
  -- the sums: each narrowed dashboard counts in the window of the whole one
  · intro body bodies hbody hbodies panel
    obtain ⟨window', hwindow', hreports⟩ := reports_of_dashboard hbody
    obtain rfl := Except.ok.inj (hwindow'.symm.trans hwindow)
    have hzero (id : Str) (hid : id ∉ eventRepositoryIds collate db window' none) :=
      eq_zero_of_not_active (fun hactive => hid ((hids id).mpr hactive)) panel
    have hcounts (o : RepositoryOption) (ho : o ∈ repositoryRows collate db _) :=
      (reports_narrowed hwindow (hbodies o ho)).1 panel
    constructor
    · rw [hreports.currentlyOpen, openIn_additive, List.map_congr_left fun o ho => (hcounts o ho).1]
      exact (sum_options (fun id => (contentOf db).openIn (some id) panel window'.start window'.stop)
        fun r _ hid => (hzero _ hid).1).symm
    · intro kind hkind
      rw [hreports.totals panel kind hkind, ← rowsIn_eq, rowsIn_additive,
        List.map_congr_left fun o ho => (hcounts o ho).2 kind hkind]
      simp only [rowsIn_eq]
      exact (sum_options
        (fun id => (contentOf db).rowsIn (some id) panel kind window'.start window'.stop)
        fun r _ hid => (hzero _ hid).2 kind hkind).symm

/-- A database with three repositories and an open issue in two of them. -/
def twoIssues : Db where
  repositories :=
    ⟨[⟨lit "R", lit "org/r", lit "org", lit "u", false, true, 0, 0⟩,
        ⟨lit "Q", lit "org/q", lit "org", lit "u", false, true, 0, 0⟩,
        ⟨lit "S", lit "org/s", lit "org", lit "u", false, true, 0, 0⟩], by decide, by decide⟩
  issues :=
    ⟨[⟨lit "I", lit "R", 7, lit "v", false, 1786406400000000, 1786406400000000, none, lit "OPEN", none⟩,
        ⟨lit "J", lit "S", 7, lit "v", false, 1786406430000000, 1786406430000000, none, lit "OPEN", none⟩],
      by decide, by decide⟩
  pullRequests := .empty
  ingestRuns := .empty
  syncState := none
  issues_fk := by decide
  pullRequests_fk := fun _ h => absurd h List.not_mem_nil

/-- The two repositories with an issue are the options, and the third one is hidden. -/
theorem twoIssues_partition : ∃ options,
    repositoryOptions (fun _ => true) (fun _ _ => true) twoIssues sampleClock (lit "all") = .ok options ∧
      options.repositories = [⟨lit "R", lit "org/r", lit "u"⟩, ⟨lit "S", lit "org/s", lit "u"⟩] ∧
      Partitions twoIssues
        (dashboard (fun _ => true) (fun _ _ => true) twoIssues sampleClock (lit "all"))
        options.repositories := by
  have hwindow : buildWindow (fun _ => true) twoIssues sampleClock (lit "all") none = .ok sampleWindow := rfl
  have hids : eventRepositoryIds (fun _ _ => true) twoIssues sampleWindow none = [lit "R", lit "S"] :=
    List.mergeSort_of_pairwise (List.pairwise_of_forall fun _ _ => rfl)
  have hrows : repositoryRows (fun _ _ => true) twoIssues [lit "R", lit "S"] =
      [⟨lit "R", lit "org/r", lit "u"⟩, ⟨lit "S", lit "org/s", lit "u"⟩] :=
    congrArg (List.map _) (List.mergeSort_of_pairwise (List.pairwise_of_forall fun _ _ => rfl))
  have hoptions : repositoryOptions (fun _ => true) (fun _ _ => true) twoIssues sampleClock (lit "all") =
      .ok ⟨lit "all", [⟨lit "R", lit "org/r", lit "u"⟩, ⟨lit "S", lit "org/s", lit "u"⟩],
        sampleClock.startedAt⟩ :=
    repositoryOptions_eq_ok.mpr ⟨sampleWindow, hwindow, by rw [hids, hrows]⟩
  exact ⟨_, hoptions, rfl, options_partition hoptions⟩

end Ghpulse.Dashboard
