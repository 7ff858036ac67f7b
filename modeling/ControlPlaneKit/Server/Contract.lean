import ControlPlaneKit.Server.Template
import ControlPlaneKit.Server.Services

/-!
# Routes that share no path

Two templates that no path instantiates both have different numbers of segments, or different
literals at some place (`overlaps`). In a composition whose routes of one method do not overlap, the
route that instantiates a path is the one that `_match_http_route` finds, wherever it stands in the
list.
-/

namespace ControlPlaneKit

namespace Server

/-- `HttpApiRouteContract`: a route of the public contract, which the client and the server share. -/
structure PublicRoute where
  routeId : String
  method : String
  template : Template
  readOnly : Bool
  serviceRole : String
  maxBytes : ℕ

/-- The route as the server matches it. -/
def PublicRoute.contract (route : PublicRoute) : Route :=
  ⟨route.routeId, route.method, pieces route.template.text, route.readOnly, route.serviceRole,
    route.maxBytes⟩

/-- Two segments that one part of a path can fill. -/
def Segment.meets : Segment → Segment → Bool
  | .literal text, .literal text' => text == text'
  | _, _ => true

/-- As many segments, each of which meets the other at its place. -/
def overlap : List Segment → List Segment → Bool
  | [], [] => true
  | s :: segments, s' :: segments' => s.meets s' && overlap segments segments'
  | _, _ => false

/-- Two templates that one path can fill. -/
def Template.overlaps (template template' : Template) : Bool :=
  overlap template.segments template'.segments

section Overlap

variable {segments segments' : List Segment} {m m' : List (String × String)}
  {parts parts' : List (List Char)}

theorem slash_notMem_literal {text : List Char} (h : (Segment.literal text).WellFormed) :
    '/' ∉ text :=
  fun hmem => absurd (h _ hmem) (by decide)

/-- The parts of a path have no slash. -/
theorem Fills.slash_notMem (h : Fills segments m parts) (hformed : ∀ s ∈ segments, s.WellFormed) :
    ∀ part ∈ parts, '/' ∉ part := by
  induction h with
  | nil => exact List.forall_mem_nil _
  | literal text _ ih =>
    rw [List.forall_mem_cons] at hformed ⊢
    exact ⟨slash_notMem_literal hformed.1, ih hformed.2⟩
  | placeholder name _ hvalue _ ih =>
    rw [List.forall_mem_cons] at hformed ⊢
    exact ⟨hvalue, ih hformed.2⟩

/-- Segments that the same parts fill overlap. -/
theorem Fills.overlap (h : Fills segments m parts) (h' : Fills segments' m' parts) :
    overlap segments segments' = true := by
  induction h generalizing segments' m' with
  | nil =>
    cases h'
    rfl
  | literal text _ ih =>
    cases h' with
    | literal _ h' => simp [Server.overlap, Segment.meets, ih h']
    | placeholder name _ _ h' => simp [Server.overlap, Segment.meets, ih h']
  | placeholder name _ _ _ ih =>
    cases h' with
    | literal _ h' => simp [Server.overlap, Segment.meets, ih h']
    | placeholder name _ _ h' => simp [Server.overlap, Segment.meets, ih h']

/-- A path has its parts only once. -/
theorem joined_injective (hparts : ∀ part ∈ parts, '/' ∉ part) (hparts' : ∀ part ∈ parts', '/' ∉ part)
    (hne : parts ≠ []) (hne' : parts' ≠ []) (h : joined parts = joined parts') : parts = parts' := by
  have hsplit : ∀ {parts : List (List Char)}, (∀ part ∈ parts, '/' ∉ part) → parts ≠ [] →
      (joined parts).splitOn '/' = parts :=
    fun hslash hne => List.splitOn_intercalate '/' hslash hne
  rw [← hsplit hparts hne, h, hsplit hparts' hne']

end Overlap

/-! ### The route that is found -/

/-- Routes with an identity each and a template of at least one segment, no two of which overlap if
they have one method. -/
structure Separated (routes : List PublicRoute) : Prop where
  identities : (routes.map PublicRoute.routeId).Nodup
  rooted : ∀ route ∈ routes, route.template.segments ≠ []
  apart : ∀ route ∈ routes, ∀ route' ∈ routes, route.method = route'.method →
    route.template.overlaps route'.template = true → route = route'

section Found

variable {platform : Platform} {composition : Composition} {routes : List PublicRoute}
  {route route' : PublicRoute} {method : String} {path : List Char} {m m' : List (String × String)}

/-- Two routes of one method do not match one path. -/
theorem Separated.eq_of_match (h : Separated routes) (hroute : route ∈ routes)
    (hroute' : route' ∈ routes) (hmethod : route.method = route'.method)
    (hinstance : route.template.Instance path m) (hline : '\n' ∉ path)
    (hmatch : matchPieces route'.contract.template path = some m') : route = route' := by
  rw [PublicRoute.contract, pieces_text] at hmatch
  obtain ⟨parts', hfills', hend⟩ := matchPieces_piecesOf.mp hmatch
  have hfills := (fills_iff route.template.distinct).mpr ⟨hinstance.names, hinstance.values, rfl⟩
  have hpath : path = joined parts' := by
    rcases hend with hend | ⟨-, hend⟩
    · exact hend
    · exact absurd (hend ▸ List.mem_append_right _ (List.mem_singleton_self _)) hline
  have hne : ∀ {r : PublicRoute} {n : List (String × String)} {parts : List (List Char)},
      r ∈ routes → Fills r.template.segments n parts → parts ≠ [] := by
    intro r n parts hr hfills
    obtain ⟨s, segments, hsegments⟩ := List.exists_cons_of_ne_nil (h.rooted r hr)
    rw [hsegments] at hfills
    exact hfills.ne_nil
  have hparts := joined_injective (hfills.slash_notMem route.template.wellFormed)
    (hfills'.slash_notMem route'.template.wellFormed) (hne hroute hfills) (hne hroute' hfills')
    (hinstance.path.symm.trans hpath)
  rw [← hparts] at hfills'
  exact h.apart route hroute route' hroute' hmethod (hfills.overlap hfills')

/-- **The route of a path is found**, wherever it stands, with the values of its placeholders. -/
theorem Separated.matchHttpRoute (h : Separated routes)
    (hcomposition : composition.routes = routes.map PublicRoute.contract) (hroute : route ∈ routes)
    (hmethod : platform.upper method = route.method) (hinstance : route.template.Instance path m)
    (hline : '\n' ∉ path) :
    matchHttpRoute platform composition method (String.ofList path) = some (route.contract, m) := by
  have hmatch : matchPieces route.contract.template path = some m := by
    rw [PublicRoute.contract, pieces_text, matchPieces_piecesOf]
    exact ⟨_, (fills_iff route.template.distinct).mpr ⟨hinstance.names, hinstance.values, rfl⟩,
      .inl hinstance.path⟩
  -- An earlier route of the method that matches would be this one.
  have hfound : ∀ others : List PublicRoute, route ∈ others → (∀ r ∈ others, r ∈ routes) →
      ((others.map PublicRoute.contract).findSome? fun r => if r.method = platform.upper method then
        (matchPieces r.template path).map fun parameters => (r, parameters) else none) =
        some (route.contract, m) := by
    intro others
    induction others with
    | nil => exact fun h => absurd h List.not_mem_nil
    | cons r others ih =>
      intro hmem hall
      rw [List.forall_mem_cons] at hall
      rw [List.map_cons, List.findSome?_cons]
      by_cases hsame : r = route
      · subst hsame
        have hr : r.contract.method = platform.upper method := hmethod.symm
        rw [if_pos hr, hmatch]
        rfl
      · have hrest := ih ((List.mem_cons.mp hmem).resolve_left fun h => hsame h.symm) hall.2
        by_cases hr : r.contract.method = platform.upper method
        · rw [if_pos hr]
          cases hpieces : matchPieces r.contract.template path with
          | none => exact hrest
          | some m' =>
            have heq := h.eq_of_match hroute hall.1 (hmethod.symm.trans hr.symm) hinstance hline
              hpieces
            exact absurd heq.symm hsame
        · rw [if_neg hr]
          exact hrest
  rw [Server.matchHttpRoute, String.toList_ofList, hcomposition]
  exact hfound routes hroute fun r hr => hr

/-- A table of the routes finds a route under its identity. -/
theorem Separated.find (h : Separated routes) (hroute : route ∈ routes) :
    (routes.reverse.find? fun r => r.routeId == route.routeId) = some route := by
  have hsome : (routes.reverse.find? fun r => r.routeId == route.routeId).isSome := by
    rw [List.find?_isSome]
    exact ⟨route, List.mem_reverse.mpr hroute, beq_self_eq_true route.routeId⟩
  obtain ⟨r, hr⟩ := Option.isSome_iff_exists.mp hsome
  have hmem := List.mem_reverse.mp (List.mem_of_find?_eq_some hr)
  have hsame : r.routeId = route.routeId := by simpa using List.find?_some hr
  rw [hr, List.inj_on_of_nodup_map h.identities hmem hroute hsame]

end Found

end Server

end ControlPlaneKit
