import Ghpulse.Cache.Isolation
import Ghpulse.Library.FormUrl
import Ghpulse.Web.Coordinator

/-!
# Addresses

The selection of the dashboard travels in two addresses: in the page's own, from which a reload reads it
back, and in the requests of the page, from which the server reads the arguments of a call.

The framework that reads a request is not part of the program: it gives the last value of a query
parameter, as `urllib.parse.parse_qsl` reads the query, and it converts the ones declared as `int`.

Reference: `src/app.jsx` (`RANGE_PRESETS`, `readFilterState`, `buildDashboardQuery`,
`buildRepositoriesQuery`, `setBrowserFilterState`); `backend/api_dashboard.py` (`dashboard_route`);
`backend/api.py` (`repositories_route`).
-/

open Python Ghpulse.Cache

namespace Ghpulse.Web

open Coordinator (Selection)

/-! ## The page

The functions that read and write addresses, as the source has them. `URLSearchParams` keeps the order of
parameters and takes the first one of a name.
-/

/-- `RANGE_PRESETS`: a label and a value. -/
def rangePresets : List (Str × Str) := [
  (lit "24h", lit "1d"),
  (lit "7d", lit "7d"),
  (lit "30d", lit "30d"),
  (lit "90d", lit "90d"),
  (lit "1y", lit "365d"),
  (lit "all", lit "all")]

/-- `VALID_RANGES`. -/
def validRanges : List Str := rangePresets.map Prod.snd

/-- `value || other`, of a string that may be missing. -/
def textOr (value : Option Str) (other : Str) : Str :=
  match value with
  | some s => if s = [] then other else s
  | none => other

/-- The query of a `location.search`. -/
def searchQuery (search : Str) : Str := if search.head? = some (cp '?') then search.drop 1 else search

/-- `readFilterState`. -/
def readFilterState (search : Str) : Selection Str where
  range :=
    let requestedRange := textOr (FormUrl.get (FormUrl.parse (searchQuery search)) (lit "range")) (lit "30d")
    if requestedRange ∈ validRanges then requestedRange else lit "30d"
  repository := textOr (FormUrl.get (FormUrl.parse (searchQuery search)) (lit "repository")) []

/-- The parameters after `setBrowserFilterState`. -/
def filterParams (params : List (Str × Str)) (range repository : Str) : List (Str × Str) :=
  let params := FormUrl.set (lit "range") range params
  if repository ≠ [] then FormUrl.set (lit "repository") repository params
  else FormUrl.delete params (lit "repository")

/-- `setBrowserFilterState`: the new `location.search`. The URL parser leaves the characters of a serialized
query as they are. -/
def setBrowserFilterState (search range repository : Str) : Str :=
  cp '?' :: FormUrl.serialize (filterParams (FormUrl.parse (searchQuery search)) range repository)

/-- `buildDashboardQuery`. -/
def buildDashboardQuery (range repository : Str) (fresh : Bool) : Str :=
  let params := [(lit "range", if range = [] then lit "30d" else range)]
  let params := if repository ≠ [] then FormUrl.set (lit "repository") repository params else params
  let params := if fresh then FormUrl.set (lit "fresh") (lit "1") params else params
  lit "/api/dashboard?" ++ FormUrl.serialize params

/-- `buildRepositoriesQuery`. -/
def buildRepositoriesQuery (range : Str) (fresh : Bool) : Str :=
  let params := [(lit "range", if range = [] then lit "30d" else range)]
  let params := if fresh then FormUrl.set (lit "fresh") (lit "1") params else params
  lit "/api/repositories?" ++ FormUrl.serialize params

/-! ## The server

Of a name that occurs more than once the framework takes the last value, and the browser the first one.
The page never sends a name twice, so both read the same.
-/

/-- The endpoints that `cache_response` decorates. -/
inductive Endpoint where
  | dashboard
  | repositories
  deriving DecidableEq

/-- `fn.__qualname__`. -/
def Endpoint.qualname : Endpoint → Str
  | .dashboard => lit "dashboard"
  | .repositories => lit "repositories"

/-- What the framework reads from the query of a request. -/
structure Framework where
  /-- A query parameter. -/
  param : Str → Str → Option Str
  /-- The value of a parameter that is declared as `int`. -/
  int : Str → Option ℤ

/-- The last value of a name. -/
def lastValue (params : List (Str × Str)) (name : Str) : Option Str := FormUrl.get params.reverse name

/-- What the documentation of the framework says. -/
structure Framework.Documented (fw : Framework) : Prop where
  param_eq : ∀ query name, fw.param query name = lastValue (FormUrl.parseQsl query) name
  int_one : fw.int (lit "1") = some 1

/-- `fresh: int = Query(0)`. -/
def Framework.fresh (fw : Framework) (query : Str) : Option ℤ :=
  match fw.param query (lit "fresh") with
  | some text => fw.int text
  | none => some 0

/-- The visibility of a request. -/
def visibility (isGuest : Bool) : Str := if isGuest then lit "guest" else lit "authenticated"

/-- The four arguments of the dashboard have different names. -/
theorem names_nodup_dashboard (rng repository visibility fresh : Scalar) :
    ([(lit "rng", rng), (lit "repository", repository), (lit "visibility", visibility),
      (lit "fresh", fresh)].map Prod.fst).Nodup := by
  change [lit "rng", lit "repository", lit "visibility", lit "fresh"].Nodup
  decide

/-- So have the three of the list. -/
theorem names_nodup_repositories (rng visibility fresh : Scalar) :
    ([(lit "rng", rng), (lit "visibility", visibility), (lit "fresh", fresh)].map Prod.fst).Nodup := by
  change [lit "rng", lit "visibility", lit "fresh"].Nodup
  decide

/-- The call of `dashboard_route`. -/
def Framework.dashboardRoute (fw : Framework) (isGuest : Bool) (query : Str) :
    Option (KeywordCall Endpoint) :=
  (fw.fresh query).map fun fresh =>
    { endpoint := .dashboard
      kwargs := [(lit "rng", .str ((fw.param query (lit "range")).getD (lit "30d"))),
        (lit "repository", (fw.param query (lit "repository")).elim .none .str),
        (lit "visibility", .str (visibility isGuest)), (lit "fresh", .int fresh)]
      names_nodup := names_nodup_dashboard _ _ _ _ }

/-- The call of `repositories_route`. -/
def Framework.repositoriesRoute (fw : Framework) (isGuest : Bool) (query : Str) :
    Option (KeywordCall Endpoint) :=
  (fw.fresh query).map fun fresh =>
    { endpoint := .repositories
      kwargs := [(lit "rng", .str ((fw.param query (lit "range")).getD (lit "30d"))),
        (lit "visibility", .str (visibility isGuest)), (lit "fresh", .int fresh)]
      names_nodup := names_nodup_repositories _ _ _ }

/-- The call of a request, from its path and query; nothing stands for an answer 404 or 422. -/
def Framework.route (fw : Framework) (isGuest : Bool) (target : Str) : Option (KeywordCall Endpoint) :=
  let (path, query) := cut (cp '?') target
  if path = lit "/api/dashboard" then fw.dashboardRoute isGuest query
  else if path = lit "/api/repositories" then fw.repositoriesRoute isGuest query
  else none

/-! ## A reload

What is written into the address is parsed again when the page is loaded: the two parameters of the page
come back, and every other one stays where it is.
-/

/-- A range of the page can be encoded. -/
theorem encodable_of_mem_validRanges {range : Str} (h : range ∈ validRanges) : encodable range = true := by
  revert range
  decide

/-- It is not empty, either. -/
theorem ne_nil_of_mem_validRanges {range : Str} (h : range ∈ validRanges) : range ≠ [] := by
  revert range
  decide

/-- A text that is not empty is taken as it is. -/
theorem textOr_some {s : Str} (h : s ≠ []) (other : Str) : textOr (some s) other = s := if_neg h

/-- The new address carries exactly the parameters that were set. -/
theorem parse_setBrowserFilterState (search : Str) {range repository : Str}
    (hrange : encodable range = true) (hrepository : encodable repository = true) :
    FormUrl.parse (searchQuery (setBrowserFilterState search range repository)) =
      filterParams (FormUrl.parse (searchQuery search)) range repository := by
  refine FormUrl.parse_serialize ?_
  have hcarried : FormUrl.Carried (lit "range", range) := ⟨rfl, hrange⟩
  have hparse : ∀ p ∈ FormUrl.parse (searchQuery search), FormUrl.Carried p :=
    fun _ hp => FormUrl.carried_of_mem_parse hp
  have hset := FormUrl.forall_mem_set (P := FormUrl.Carried) hcarried hparse
  unfold filterParams
  split_ifs
  · exact FormUrl.forall_mem_set ⟨rfl, hrepository⟩ hset
  · exact FormUrl.forall_mem_delete hset _

/-- The two parameters have different names. -/
theorem range_ne_repository : lit "range" ≠ lit "repository" := by decide

/-- The range is read back from the address. -/
theorem get_range_filterParams (params : List (Str × Str)) (range repository : Str) :
    FormUrl.get (filterParams params range repository) (lit "range") = some range := by
  unfold filterParams
  split_ifs
  · rw [FormUrl.get_set_of_ne range_ne_repository, FormUrl.get_set_self]
  · rw [FormUrl.get_delete_of_ne range_ne_repository, FormUrl.get_set_self]

/-- So is the repository, an absent one as the empty text. -/
theorem textOr_get_filterParams (params : List (Str × Str)) (range repository : Str) :
    textOr (FormUrl.get (filterParams params range repository) (lit "repository")) [] = repository := by
  unfold filterParams
  split_ifs with h
  · rw [FormUrl.get_set_self, textOr_some h]
  · rw [FormUrl.get_delete_self, not_not.mp h]
    rfl

/-- The parameters that are not the page's own. -/
def otherParams (search : Str) : List (Str × Str) :=
  FormUrl.delete (FormUrl.delete (FormUrl.parse (searchQuery search)) (lit "range")) (lit "repository")

/-- The other parameters of the address are kept in their order. -/
theorem otherParams_filterParams (params : List (Str × Str)) (range repository : Str) :
    FormUrl.delete (FormUrl.delete (filterParams params range repository) (lit "range")) (lit "repository") =
      FormUrl.delete (FormUrl.delete params (lit "range")) (lit "repository") := by
  unfold filterParams
  rw [FormUrl.delete_delete_comm]
  split_ifs
  -- both parameters are set, and then deleted again
  · rw [FormUrl.delete_set, FormUrl.delete_delete_comm, FormUrl.delete_set]
  · rw [FormUrl.delete_delete_comm, FormUrl.delete_delete_comm _ (lit "repository") (lit "range"),
      FormUrl.delete_set]
    exact List.filter_filter.trans (List.filter_congr fun p _ => Bool.and_self _)

/-- What was put into the address is read back from it, and its other parameters stay. -/
theorem readFilterState_setBrowserFilterState (search : Str) {range repository : Str}
    (hrange : range ∈ validRanges) (hrepository : encodable repository = true) :
    readFilterState (setBrowserFilterState search range repository) = ⟨range, repository⟩ ∧
      otherParams (setBrowserFilterState search range repository) = otherParams search := by
  have hparse := parse_setBrowserFilterState search (encodable_of_mem_validRanges hrange) hrepository
  constructor
  · unfold readFilterState
    rw [hparse, get_range_filterParams, textOr_get_filterParams,
      textOr_some (ne_nil_of_mem_validRanges hrange)]
    exact congrArg (Selection.mk · repository) (if_pos hrange)
  · unfold otherParams
    rw [hparse, otherParams_filterParams]

/-! ## A request

A request is built by the page and read by the server. The two directions use different libraries, and
each parameter survives both.
-/

/-- A selection that the page can ask for. -/
structure Selectable (selection : Selection Str) : Prop where
  range_ne : selection.range ≠ []
  range : encodable selection.range = true
  repository : encodable selection.repository = true

/-- The parameters of a request of the dashboard. -/
def dashboardParams (range repository : Str) (fresh : Bool) : List (Str × Str) :=
  (lit "range", range) ::
    ((if repository ≠ [] then [(lit "repository", repository)] else []) ++
      if fresh then [(lit "fresh", lit "1")] else [])

/-- The query of a request is the serialization of its parameters. -/
theorem buildDashboardQuery_eq {range : Str} (h : range ≠ []) (repository : Str) (fresh : Bool) :
    buildDashboardQuery range repository fresh =
      lit "/api/dashboard" ++ cp '?' :: FormUrl.serialize (dashboardParams range repository fresh) := by
  have hpath (query : Str) : lit "/api/dashboard?" ++ query = lit "/api/dashboard" ++ cp '?' :: query := rfl
  unfold buildDashboardQuery dashboardParams
  rw [if_neg h, hpath]
  cases fresh <;> split_ifs <;> rfl

/-- Every parameter of a selectable request survives the round trip. -/
theorem carried_dashboardParams {selection : Selection Str} (h : Selectable selection) (fresh : Bool) :
    ∀ p ∈ dashboardParams selection.range selection.repository fresh, FormUrl.Carried p := by
  refine List.forall_mem_cons.mpr ⟨⟨rfl, h.range⟩, fun p hp => ?_⟩
  rcases List.mem_append.mp hp with hp | hp
  · split_ifs at hp
    · exact List.mem_singleton.mp hp ▸ ⟨rfl, h.repository⟩
    · cases hp
  · split_ifs at hp
    · exact List.mem_singleton.mp hp ▸ ⟨rfl, rfl⟩
    · cases hp

/-- The values of the parameters, whichever of them are there. -/
theorem lastValue_dashboardParams (range repository : Str) (fresh : Bool) :
    lastValue (dashboardParams range repository fresh) (lit "range") = some range ∧
      lastValue (dashboardParams range repository fresh) (lit "repository") =
        (if repository ≠ [] then some repository else none) ∧
      lastValue (dashboardParams range repository fresh) (lit "fresh") =
        if fresh then some (lit "1") else none := by
  unfold lastValue dashboardParams
  cases fresh <;> split_ifs <;> exact ⟨rfl, rfl, rfl⟩

/-- A call asks for a selection, on behalf of a viewer. -/
structure Asks (call : KeywordCall Endpoint) (selection : Selection Str) (isGuest fresh : Bool) : Prop where
  endpoint : call.endpoint = .dashboard
  rng : call.get (lit "rng") = .str selection.range
  repository : call.get (lit "repository") =
    if selection.repository = [] then .none else .str selection.repository
  visibility : call.get (lit "visibility") = .str (visibility isGuest)
  fresh : call.fresh = fresh

/-- The call that a page asks for. -/
def dashboardCall (selection : Selection Str) (isGuest fresh : Bool) : KeywordCall Endpoint where
  endpoint := .dashboard
  kwargs := [(lit "rng", .str selection.range),
    (lit "repository", if selection.repository = [] then .none else .str selection.repository),
    (lit "visibility", .str (visibility isGuest)), (lit "fresh", .int (if fresh then 1 else 0))]
  names_nodup := names_nodup_dashboard _ _ _ _

/-- The call of a selection asks for it. -/
theorem asks_dashboardCall (selection : Selection Str) (isGuest fresh : Bool) :
    Asks (dashboardCall selection isGuest fresh) selection isGuest fresh where
  endpoint := rfl
  rng := rfl
  repository := rfl
  visibility := rfl
  fresh := by cases fresh <;> rfl

/-- The server reads the parameters as they were written. -/
theorem reads_dashboardParams {fw : Framework} (hfw : fw.Documented) {selection : Selection Str}
    (h : Selectable selection) (fresh : Bool) :
    let query := FormUrl.serialize (dashboardParams selection.range selection.repository fresh)
    fw.param query (lit "range") = some selection.range ∧
      fw.param query (lit "repository") =
        (if selection.repository ≠ [] then some selection.repository else none) ∧
      fw.fresh query = some (if fresh then 1 else 0) := by
  -- the query is read as the list that was written
  have hparam (name : Str) :
      fw.param (FormUrl.serialize (dashboardParams selection.range selection.repository fresh)) name =
        lastValue (dashboardParams selection.range selection.repository fresh) name := by
    rw [hfw.param_eq, FormUrl.parseQsl_serialize (carried_dashboardParams h fresh)]
  obtain ⟨hrange, hrepository, hfresh⟩ :=
    lastValue_dashboardParams selection.range selection.repository fresh
  refine ⟨(hparam _).trans hrange, (hparam _).trans hrepository, ?_⟩
  rw [Framework.fresh, hparam, hfresh]
  cases fresh
  · rfl
  · exact hfw.int_one

/-- The server makes the call that the page asks for. -/
theorem route_buildDashboardQuery {fw : Framework} (hfw : fw.Documented) {selection : Selection Str}
    (h : Selectable selection) (isGuest fresh : Bool) :
    fw.route isGuest (buildDashboardQuery selection.range selection.repository fresh) =
      some (dashboardCall selection isGuest fresh) := by
  obtain ⟨hrange, hrepository, hfresh⟩ := reads_dashboardParams hfw h fresh
  have hpath : cp '?' ∉ lit "/api/dashboard" := by decide
  rw [buildDashboardQuery_eq h.range_ne, Framework.route, cut_append hpath]
  dsimp only
  rw [if_pos rfl, Framework.dashboardRoute, hfresh, Option.map_some]
  unfold dashboardCall
  simp only [hrange, hrepository, Option.getD_some, Option.some.injEq, KeywordCall.mk.injEq, true_and]
  by_cases hempty : selection.repository = []
  · rw [if_pos hempty, if_neg (not_not.mpr hempty)]
    rfl
  · rw [if_neg hempty, if_pos hempty]
    rfl

/-- The call for the rows of the repository filter. -/
def repositoriesCall (range : Str) (isGuest fresh : Bool) : KeywordCall Endpoint where
  endpoint := .repositories
  kwargs := [(lit "rng", .str range), (lit "visibility", .str (visibility isGuest)),
    (lit "fresh", .int (if fresh then 1 else 0))]
  names_nodup := names_nodup_repositories _ _ _

/-- The list request has the parameters of a dashboard request for all repositories. -/
theorem buildRepositoriesQuery_eq {range : Str} (h : range ≠ []) (fresh : Bool) :
    buildRepositoriesQuery range fresh =
      lit "/api/repositories" ++ cp '?' :: FormUrl.serialize (dashboardParams range [] fresh) := by
  have hpath (query : Str) : lit "/api/repositories?" ++ query = lit "/api/repositories" ++ cp '?' :: query :=
    rfl
  unfold buildRepositoriesQuery dashboardParams
  rw [if_neg h, hpath]
  cases fresh <;> rfl

/-- The server makes the call for the rows that the page asks for. -/
theorem route_buildRepositoriesQuery {fw : Framework} (hfw : fw.Documented) {range : Str} (hne : range ≠ [])
    (hrange : encodable range = true) (isGuest fresh : Bool) :
    fw.route isGuest (buildRepositoriesQuery range fresh) = some (repositoriesCall range isGuest fresh) := by
  have hselectable : Selectable (⟨range, []⟩ : Selection Str) := ⟨hne, hrange, rfl⟩
  obtain ⟨hread, -, hfresh⟩ := reads_dashboardParams hfw hselectable fresh
  have hpath : cp '?' ∉ lit "/api/repositories" := by decide
  have hother : lit "/api/repositories" ≠ lit "/api/dashboard" := by decide
  rw [buildRepositoriesQuery_eq hne, Framework.route, cut_append hpath]
  dsimp only at hread hfresh ⊢
  rw [if_neg hother, if_pos rfl, Framework.repositoriesRoute, hfresh, hread]
  rfl

/-- Calls with the same arguments have the same value for each name. -/
theorem get_of_same {a b : KeywordCall Endpoint} (h : a.Same b) (name : Str) : a.get name = b.get name := by
  have hfind (call : KeywordCall Endpoint) (item : Str × Scalar) :
      call.kwargs.find? (fun item => item.1 = name) = some item ↔ item ∈ call.kwargs ∧ item.1 = name := by
    have hname {found : Str × Scalar}
        (hfound : call.kwargs.find? (fun item => item.1 = name) = some found) : found.1 = name := by
      simpa using List.find?_some hfound
    constructor
    · intro hitem
      exact ⟨List.mem_of_find?_eq_some hitem, hname hitem⟩
    · rintro ⟨hmem, heq⟩
      cases hfound : call.kwargs.find? fun item => item.1 = name with
      | none => exact absurd (decide_eq_true heq) (List.find?_eq_none.mp hfound item hmem)
      | some found =>
        have hsame : found.1 = item.1 := (hname hfound).trans heq.symm
        rw [List.inj_on_of_nodup_map call.names_nodup (List.mem_of_find?_eq_some hfound) hmem hsame]
  unfold KeywordCall.get
  refine congrArg (fun item => (Option.map Prod.snd item).getD Scalar.none) (Option.ext fun item => ?_)
  rw [hfind, hfind, h.2.mem_iff]

/-- Calls with the same arguments ask for the same. -/
theorem Asks.of_same {a b : KeywordCall Endpoint} (h : a.Same b) {selection : Selection Str}
    {isGuest fresh : Bool} (hb : Asks b selection isGuest fresh) : Asks a selection isGuest fresh where
  endpoint := h.1.trans hb.endpoint
  rng := (get_of_same h _).trans hb.rng
  repository := (get_of_same h _).trans hb.repository
  visibility := (get_of_same h _).trans hb.visibility
  fresh := by
    rw [← hb.fresh]
    unfold KeywordCall.fresh
    rw [get_of_same h]

/-- A call asks for one selection, on behalf of one viewer. -/
theorem Asks.unique {call : KeywordCall Endpoint} {selection selection' : Selection Str}
    {isGuest isGuest' fresh fresh' : Bool} (h : Asks call selection isGuest fresh)
    (h' : Asks call selection' isGuest' fresh') : selection = selection' ∧ isGuest = isGuest' := by
  obtain ⟨range, repository⟩ := selection
  obtain ⟨range', repository'⟩ := selection'
  have hrange : range = range' := Scalar.str.inj (h.rng.symm.trans h'.rng)
  have hrepository := h.repository.symm.trans h'.repository
  have hvisibility : Web.visibility isGuest = Web.visibility isGuest' :=
    Scalar.str.inj (h.visibility.symm.trans h'.visibility)
  dsimp only at hrepository
  constructor
  · rw [Selection.mk.injEq]
    refine ⟨hrange, ?_⟩
    split_ifs at hrepository with hleft hright hright
    · rw [hleft, hright]
    · exact Scalar.str.inj hrepository
  · cases isGuest <;> cases isGuest' <;> first | rfl | exact absurd hvisibility (by decide)

/-! ## What a page is answered

The call of the server together with the cache: a body belongs to the call under whose key it was stored,
and the call to what the page has asked for.
-/

/-- The endpoints have different names. -/
theorem qualname_injective : Function.Injective Endpoint.qualname := by
  intro a b h
  cases a <;> cases b <;> first | rfl | exact absurd h (by decide)

/-- In every run, the body that a request of a page is answered was computed by a call for the page's own
selection and viewer, which bypassed the cache if the page asked for fresh data; and requests that share a
cache entry are for one selection and one viewer. -/
theorem page_answered {fw : Framework} (hfw : fw.Documented) {printable : CodePoint → Bool}
    {ttlSeconds now : ℚ} {as : List (Action (KeywordCall Endpoint))} {s : State (KeywordCall Endpoint) Str}
    (hrun : Runs.run (serve printable Endpoint.qualname) (State.init ttlSeconds now) as = some s)
    {selection : Selection Str} (h : Selectable selection) (isGuest fresh : Bool) :
    fw.route isGuest (buildDashboardQuery selection.range selection.repository fresh) =
      some (dashboardCall selection isGuest fresh) ∧
    (∀ t, .request t (dashboardCall selection isGuest fresh) ∈ as → ∀ call body,
      s.threads t = .done call (some body) → Asks body.call selection isGuest fresh) ∧
    ∀ selection' isGuest' fresh', (dashboardCall selection' isGuest' fresh').key printable Endpoint.qualname =
        (dashboardCall selection isGuest fresh).key printable Endpoint.qualname →
      selection' = selection ∧ isGuest' = isGuest := by
  have hasks := asks_dashboardCall selection isGuest fresh
  refine ⟨route_buildDashboardQuery hfw h isGuest fresh, ?_, ?_⟩
  · intro t hrequest call body hdone
    have hcall : (s.threads t).call? = some (dashboardCall selection isGuest fresh) :=
      Runs.run_of_mem (P := fun m => (m.threads t).call? = some (dashboardCall selection isGuest fresh))
        hrun hrequest (fun _ _ => call?_serve_request) fun _ _ _ h hstep => call?_serve hstep h
    rw [hdone] at hcall
    obtain rfl := Option.some.inj hcall
    have hisolated : Isolated (KeywordCall.key printable Endpoint.qualname) s :=
      Runs.run_preserves (fun _ _ _ h hstep => h.serve hstep) (isolated_init _ ttlSeconds now) hrun
    have hkey := hisolated.thread t _ (by rw [hdone]; rfl) body (by rw [hdone]; rfl)
    exact hasks.of_same (KeywordCall.same_of_key_eq printable qualname_injective hkey)
  · intro selection' isGuest' fresh' hkey
    have hsame := KeywordCall.same_of_key_eq printable qualname_injective hkey
    exact (asks_dashboardCall selection' isGuest' fresh').unique (hasks.of_same hsame)

/-- A framework as it is documented. -/
def plainFramework : Framework :=
  ⟨fun query name => lastValue (FormUrl.parseQsl query) name, Python.int⟩

/-- The plain framework behaves as documented. -/
theorem documented_plainFramework : plainFramework.Documented := ⟨fun _ _ => rfl, by decide⟩

/-- A repository whose id takes part of a query for its own. -/
def awkwardSelection : Selection Str := ⟨lit "7d", lit "R&fresh=1 +%é"⟩

/-- A signed-in viewer and a guest ask for it, and the guest asks again. -/
def awkwardRequests : List (Action (KeywordCall Endpoint)) :=
  coldRequest 0 (dashboardCall awkwardSelection false false) ++
    (coldRequest 1 (dashboardCall awkwardSelection true false) ++
      [.request 2 (dashboardCall awkwardSelection true false), .getEntry 2])

/-- The guest is answered from the entry of the guests, although the viewer's was there before. -/
theorem awkwardRequest_answered :
    ∃ s body,
      Runs.run (serve (fun _ => false) Endpoint.qualname) (State.init 3600 0) awkwardRequests = some s ∧
      s.threads 0 = .done (dashboardCall awkwardSelection false false)
        (some ⟨dashboardCall awkwardSelection false false, []⟩) ∧
      s.threads 2 = .done (dashboardCall awkwardSelection true false) (some body) ∧
      plainFramework.route true (buildDashboardQuery (lit "7d") (lit "R&fresh=1 +%é") false) =
        some (dashboardCall awkwardSelection true false) ∧
      Asks body.call awkwardSelection true false := by
  have hkeys : (dashboardCall awkwardSelection true false).key (fun _ => false) Endpoint.qualname ≠
      (dashboardCall awkwardSelection false false).key (fun _ => false) Endpoint.qualname := by
    intro h
    have hsame := KeywordCall.same_of_key_eq _ qualname_injective h
    have hviewers := (asks_dashboardCall awkwardSelection true false).unique
      ((asks_dashboardCall awkwardSelection false false).of_same hsame)
    exact absurd hviewers.2 (by decide)
  obtain ⟨s, hrun, hviewer, hguest⟩ : ∃ s,
      Runs.run (serve (fun _ => false) Endpoint.qualname) (State.init 3600 0) awkwardRequests = some s ∧
      s.threads 0 = .done (dashboardCall awkwardSelection false false)
        (some ⟨dashboardCall awkwardSelection false false, []⟩) ∧
      s.threads 2 = .done (dashboardCall awkwardSelection true false)
        (some ⟨dashboardCall awkwardSelection true false, []⟩) := by
    apply Exists.intro
    apply And.intro
    · apply Runs.run_append.mpr
      refine ⟨_, run_coldRequest rfl (by decide) rfl rfl rfl, ?_⟩
      apply Runs.run_append.mpr
      refine ⟨_, run_coldRequest rfl (by decide) rfl ?_ rfl, ?_⟩
      · exact Function.update_of_ne hkeys _ _
      refine run_hit rfl (by decide) rfl
        (?_ : _ = some ⟨⟨dashboardCall awkwardSelection true false, []⟩, 0, 0⟩) rfl ?_
      · simp only [TTLCache.put, State.setThread, Function.update_self]
        rfl
      · exact (by norm_num : (0 - 0 : ℚ) ≤ 3600)
    · exact ⟨rfl, rfl⟩
  have hselectable : Selectable awkwardSelection := ⟨by decide, by decide, by decide⟩
  obtain ⟨hroute, hanswer, -⟩ := page_answered documented_plainFramework hrun hselectable true false
  exact ⟨s, _, hrun, hviewer, hguest, hroute, hanswer 2 (by simp [awkwardRequests]) _ _ hguest⟩

end Ghpulse.Web
