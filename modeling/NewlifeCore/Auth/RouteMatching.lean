import NewlifeCore.Auth.MemberWebApps

/-!
# `AuthMiddleware`: which configuration guards a request

The middleware runs before the router, so it looks for the route itself.  It differs from the router
in two ways.  It goes by the path of `request.url`, a text that is put together from the scheme, the
authority that Starlette takes from the `Host` header and the decoded path, and is then parsed
again: a `?` or a `#` of the decoded path ends the path there.  And it goes on past a route that has
no configuration, while the router takes the first route that serves the request.

What Starlette makes of a `Host` header is its own affair and changed with its versions, so it is a
parameter here, `authority`: the header itself where it is accepted, the address of the server where
it is not.  Nothing is assumed of it.

The loop over the candidates is characterised first (`matchCandidates_iff`: the first route that
serves the request and is configured), with no word on where the path comes from.  Agreement is then
that this route carries the configuration of the one the router takes (`agrees_iff`), and for a
`Plain` request, whose text is parsed into the parts it was written from, the two paths are one and
only the second difference is left.
-/

namespace NewlifeCore.Auth

/-! ## 1. Routes and requests -/

/-- `AuthConfig` -/
structure AuthConfig where
  permissionCodes : Option (List String) := none
  requireAll : Bool := false
  allowSuperuser : Bool := false
  requireAuth : Bool := true
  isAdmin : Bool := false
deriving DecidableEq

def AuthConfig.hasPermissionCheck (config : AuthConfig) : Bool :=
  config.permissionCodes.any fun codes => !codes.isEmpty

/-- A route, or the effective context of an included one, with the `__auth_config__` of its
endpoint and of `dependant.call`.  What has no methods is no route of the API. -/
structure Route where
  methods : List String
  path : List Char
  pathRegex : Option (List Char → Bool)
  endpoint : Option AuthConfig
  dependantCall : Option AuthConfig := none

/-- A member of `app.routes`. -/
inductive AppRoute
  | route (r : Route)
  | included (contexts : List Route)

/-- The ASGI scope of a request to an application that may be mounted under `rootPath`. -/
structure Scope where
  method : String
  scheme : List Char
  host : List Char
  path : List Char
  rootPath : List Char := []

/-- The text that `request.url` is parsed from; `authority` is what Starlette takes from the `Host`
header. -/
def Scope.url (authority : List Char → List Char) (scope : Scope) : List Char :=
  scope.scheme ++ ':' :: '/' :: '/' :: (authority scope.host ++ scope.path)

/-- A path without the prefix that the application is mounted under. -/
def relativePath (rootPath path : List Char) : List Char :=
  if !rootPath.isEmpty && rootPath.isPrefixOf path then path.drop rootPath.length else path

/-- The route is for this method and path; one without a regular expression, for its own path. -/
def Route.serves (r : Route) (method : String) (path : List Char) : Bool :=
  method ∈ r.methods && match r.pathRegex with
    | some regex => regex path
    | none => r.path = path

namespace AuthMiddleware

/-! ## 2. The middleware and the router -/

def iterMatchableRoutes : List AppRoute → List Route
  | [] => []
  | .route r :: routes => r :: iterMatchableRoutes routes
  | .included contexts :: routes => contexts ++ iterMatchableRoutes routes

def authConfigFromCandidate (candidate : Route) : Option AuthConfig :=
  match candidate.endpoint with
  | some config => some config
  | none => candidate.dependantCall

/-- The loop over the candidates. -/
def matchCandidates (method : String) (path : List Char) : List Route → Option AuthConfig
  | [] => none
  | candidate :: rest =>
    if candidate.methods.isEmpty || method ∉ candidate.methods then
      matchCandidates method path rest
    else match candidate.pathRegex with
      | some regex =>
        if regex path then (authConfigFromCandidate candidate).or (matchCandidates method path rest)
        else matchCandidates method path rest
      | none =>
        if candidate.path = path then
          (authConfigFromCandidate candidate).or (matchCandidates method path rest)
        else matchCandidates method path rest

variable (T : UrlText) (authority : List Char → List Char) (app : List AppRoute) (scope : Scope)

/-- `_get_auth_config_from_route`; `route` is what the scope names already. -/
def getAuthConfigFromRoute (route : Option Route) : Except UrlError (Option AuthConfig) :=
  match route.bind authConfigFromCandidate with
  | some config => .ok (some config)
  | none => (Url.path T (scope.url authority)).map fun fullPath =>
      matchCandidates scope.method (relativePath scope.rootPath fullPath) (iterMatchableRoutes app)

/-- `dispatch`: whether `call_next` is reached, given which checks pass. -/
def dispatch (authenticate checkPermissions : AuthConfig → Bool) (config : Option AuthConfig) :
    Bool :=
  match config with
  | none => true
  | some config => (!config.requireAuth || authenticate config) &&
      (!config.hasPermissionCheck || checkPermissions config)

/-- **The route that the router takes.** -/
def dispatched : Option Route :=
  (iterMatchableRoutes app).find? fun r =>
    r.serves scope.method (relativePath scope.rootPath scope.path)

/-- **The middleware agrees with the router**: it returns the configuration of the endpoint that the
request is dispatched to, so that a configured handler runs only behind its checks. -/
structure Agrees : Prop where
  config : ∀ r, dispatched app scope = some r →
    getAuthConfigFromRoute T authority app scope none = .ok (authConfigFromCandidate r)
  guarded : ∀ r config, dispatched app scope = some r → authConfigFromCandidate r = some config →
    ∀ authenticate checkPermissions found,
      getAuthConfigFromRoute T authority app scope none = .ok found →
      dispatch authenticate checkPermissions found = true →
      (config.requireAuth = true → authenticate config = true) ∧
        (config.hasPermissionCheck = true → checkPermissions config = true)

/-! ## 3. What the loop finds -/

/-- Among the routes that serve the request, the first that is configured has this
configuration. -/
def FirstConfigured (routes : List Route) (method : String) (path : List Char) :
    Option AuthConfig → Prop
  | none => ∀ r ∈ routes, r.serves method path = true → authConfigFromCandidate r = none
  | some config => ∃ before r after, routes = before ++ r :: after ∧ r.serves method path = true ∧
      authConfigFromCandidate r = some config ∧
      ∀ x ∈ before, x.serves method path = true → authConfigFromCandidate x = none

variable {T authority app scope} {method : String} {path : List Char}

theorem matchCandidates_cons (r : Route) (rest : List Route) :
    matchCandidates method path (r :: rest) =
      if r.serves method path then (authConfigFromCandidate r).or (matchCandidates method path rest)
      else matchCandidates method path rest := by
  rw [matchCandidates, Route.serves]
  by_cases hmethod : method ∈ r.methods
  · have hsome : r.methods.isEmpty = false := by
      cases hm : r.methods with
      | nil => simp [hm] at hmethod
      | cons => rfl
    rw [if_neg (by simp [hmethod, hsome])]
    cases r.pathRegex with
    | some regex => simp [hmethod]
    | none => simp [hmethod]
  · rw [if_pos (by simp [hmethod])]
    simp [hmethod]

theorem firstConfigured_nil (config : Option AuthConfig) :
    FirstConfigured [] method path config ↔ config = none := by
  cases config with
  | none => simp [FirstConfigured]
  | some c => simp [FirstConfigured]

/-- A route that does not serve the request, or is not configured, is passed over. -/
theorem firstConfigured_skip {r : Route} {rest : List Route} {config : Option AuthConfig}
    (h : r.serves method path = true → authConfigFromCandidate r = none) :
    FirstConfigured (r :: rest) method path config ↔ FirstConfigured rest method path config := by
  cases config with
  | none =>
    simp only [FirstConfigured, List.forall_mem_cons]
    exact and_iff_right h
  | some c =>
    constructor
    · rintro ⟨before, r', after, hsplit, hserves, hconfig, hbefore⟩
      cases before with
      | nil =>
        obtain ⟨rfl, -⟩ := List.cons.inj hsplit
        cases (h hserves).symm.trans hconfig
      | cons x before =>
        obtain ⟨-, hrest⟩ := List.cons.inj hsplit
        exact ⟨before, r', after, hrest, hserves, hconfig, fun y hy =>
          hbefore y (List.mem_cons_of_mem _ hy)⟩
    · rintro ⟨before, r', after, rfl, hserves, hconfig, hbefore⟩
      exact ⟨r :: before, r', after, rfl, hserves, hconfig, List.forall_mem_cons.mpr ⟨h, hbefore⟩⟩

theorem firstConfigured_stop {r : Route} {rest : List Route} {config : Option AuthConfig}
    {c : AuthConfig} (hserves : r.serves method path = true)
    (hr : authConfigFromCandidate r = some c) :
    FirstConfigured (r :: rest) method path config ↔ config = some c := by
  constructor
  · intro h
    cases config with
    | none => cases (h r List.mem_cons_self hserves).symm.trans hr
    | some c' =>
      obtain ⟨before, r', after, hsplit, -, hconfig, hbefore⟩ := h
      cases before with
      | nil =>
        obtain ⟨rfl, -⟩ := List.cons.inj hsplit
        exact hconfig.symm.trans hr
      | cons x before =>
        obtain ⟨rfl, -⟩ := List.cons.inj hsplit
        cases (hbefore r List.mem_cons_self hserves).symm.trans hr
  · rintro rfl
    exact ⟨[], r, rest, rfl, hserves, hr, by simp⟩

/-- **The loop finds the first configured route.** -/
theorem matchCandidates_iff (routes : List Route) (config : Option AuthConfig) :
    matchCandidates method path routes = config ↔ FirstConfigured routes method path config := by
  induction routes with
  | nil => exact eq_comm.trans (firstConfigured_nil config).symm
  | cons r rest ih =>
    rw [matchCandidates_cons]
    split
    · rename_i hserves
      cases hr : authConfigFromCandidate r with
      | none => exact ih.trans (firstConfigured_skip fun _ => hr).symm
      | some c => exact eq_comm.trans (firstConfigured_stop hserves hr).symm
    · rename_i hserves
      exact ih.trans (firstConfigured_skip fun h => absurd h hserves).symm

/-- What is found for a request that names no route yet. -/
theorem getAuthConfigFromRoute_iff (config : Option AuthConfig) :
    getAuthConfigFromRoute T authority app scope none = .ok config ↔
      ∃ fullPath, Url.path T (scope.url authority) = .ok fullPath ∧
        FirstConfigured (iterMatchableRoutes app) scope.method
          (relativePath scope.rootPath fullPath) config := by
  show (Url.path T (scope.url authority)).map _ = _ ↔ _
  cases Url.path T (scope.url authority) with
  | error e => exact iff_of_false (by rintro ⟨⟩) (by rintro ⟨_, ⟨⟩, -⟩)
  | ok fullPath =>
    rw [Except.map, Except.ok.injEq, matchCandidates_iff]
    exact ⟨fun h => ⟨fullPath, rfl, h⟩, by rintro ⟨_, ⟨⟩, h⟩; exact h⟩

/-! ## 4. Agreement -/

/-- What stands for the `Host` header is an authority that `urlsplit` takes, and nothing in the path
ends it or is removed from it. -/
structure Plain (T : UrlText) (authority : List Char → List Char) (scope : Scope) : Prop where
  scheme : Url.IsScheme scope.scheme
  host : Url.Clean (authority scope.host)
  netloc : Url.checkNetloc T (authority scope.host) = .ok ()
  path : ∃ p, scope.path = '/' :: p ∧ ∀ c ∈ p, Url.isUnsafe c = false ∧ c ≠ '#' ∧ c ≠ '?'

/-- **A plain request is parsed into the path that it was written with.** -/
theorem Plain.path_eq (h : Plain T authority scope) :
    Url.path T (scope.url authority) = .ok scope.path := by
  obtain ⟨p, hp, hplain⟩ := h.path
  unfold Scope.url
  rw [hp, Url.path_written h.scheme h.host hplain, h.netloc]
  rfl

theorem guarded_of_config {r : Route} {config : AuthConfig} {found : Option AuthConfig}
    (hr : authConfigFromCandidate r = some config) (hfound : found = authConfigFromCandidate r)
    {authenticate checkPermissions : AuthConfig → Bool}
    (hruns : dispatch authenticate checkPermissions found = true) :
    (config.requireAuth = true → authenticate config = true) ∧
      (config.hasPermissionCheck = true → checkPermissions config = true) := by
  rw [hfound, hr] at hruns
  simp only [dispatch, Bool.and_eq_true, Bool.or_eq_true, Bool.not_eq_true'] at hruns
  constructor
  · intro hrequired
    rw [hrequired] at hruns
    simpa using hruns.1
  · intro hcheck
    rw [hcheck] at hruns
    simpa using hruns.2

theorem agrees_of_config (h : ∀ r, dispatched app scope = some r →
    getAuthConfigFromRoute T authority app scope none = .ok (authConfigFromCandidate r)) :
    Agrees T authority app scope where
  config := h
  guarded r _ hr hconfig _ _ _ hfound hruns :=
    guarded_of_config hconfig (Except.ok.inj (hfound.symm.trans (h r hr))) hruns

/-- The route that is taken serves the request, and none before it does. -/
theorem dispatched_split {r : Route} (h : dispatched app scope = some r) :
    ∃ before after, iterMatchableRoutes app = before ++ r :: after ∧
      r.serves scope.method (relativePath scope.rootPath scope.path) = true ∧
      ∀ x ∈ before, x.serves scope.method (relativePath scope.rootPath scope.path) = false := by
  obtain ⟨hserves, before, after, hsplit, hbefore⟩ := List.find?_eq_some_iff_append.mp h
  exact ⟨before, after, hsplit, hserves, fun x hx => by simpa using hbefore x hx⟩

/-- **By the path of the scope, the first configured route is the one that is taken**, unless that
one is not configured and another one is. -/
theorem firstConfigured_dispatched_iff {r : Route} (h : dispatched app scope = some r) :
    FirstConfigured (iterMatchableRoutes app) scope.method
        (relativePath scope.rootPath scope.path) (authConfigFromCandidate r) ↔
      (authConfigFromCandidate r).isSome = true ∨ ∀ r' ∈ iterMatchableRoutes app,
        r'.serves scope.method (relativePath scope.rootPath scope.path) = true →
          authConfigFromCandidate r' = none := by
  cases hr : authConfigFromCandidate r with
  | none => simp [FirstConfigured]
  | some config =>
    obtain ⟨before, after, hsplit, hserves, hbefore⟩ := dispatched_split h
    refine iff_of_true ⟨before, r, after, hsplit, hserves, hr, fun x hx hx' => ?_⟩ (.inl rfl)
    rw [hbefore x hx] at hx'
    cases hx'

/-- **When the middleware agrees with the router.** -/
theorem agrees_iff (T : UrlText) (authority : List Char → List Char) (app : List AppRoute)
    (scope : Scope) :
    (Agrees T authority app scope ↔ ∀ r, dispatched app scope = some r →
      ∃ fullPath, Url.path T (scope.url authority) = .ok fullPath ∧
        FirstConfigured (iterMatchableRoutes app) scope.method
          (relativePath scope.rootPath fullPath) (authConfigFromCandidate r)) ∧
    (Plain T authority scope → (Agrees T authority app scope ↔ ∀ r, dispatched app scope = some r →
      (authConfigFromCandidate r).isSome = true ∨ ∀ r' ∈ iterMatchableRoutes app,
        r'.serves scope.method (relativePath scope.rootPath scope.path) = true →
          authConfigFromCandidate r' = none)) := by
  have hagrees : Agrees T authority app scope ↔ ∀ r, dispatched app scope = some r →
      ∃ fullPath, Url.path T (scope.url authority) = .ok fullPath ∧
        FirstConfigured (iterMatchableRoutes app) scope.method
          (relativePath scope.rootPath fullPath) (authConfigFromCandidate r) :=
    ⟨fun h r hr => (getAuthConfigFromRoute_iff _).mp (h.config r hr),
      fun h => agrees_of_config fun r hr => (getAuthConfigFromRoute_iff _).mpr (h r hr)⟩
  refine ⟨hagrees, fun hplain => hagrees.trans (forall₂_congr fun r hr => ?_)⟩
  rw [← firstConfigured_dispatched_iff hr, hplain.path_eq]
  exact ⟨by rintro ⟨_, ⟨⟩, h⟩; exact h, fun h => ⟨scope.path, rfl, h⟩⟩

/-! ### 4.1 A `?` in the path -/

/-- The path is `before`, one segment, `after`. -/
def oneSegment (before after path : List Char) : Bool :=
  let rest := path.drop before.length
  let segment := rest.take (rest.length - after.length)
  before.isPrefixOf path && after.isSuffixOf rest && !segment.isEmpty && '/' ∉ segment

/-- `GET /{user_id}` of the users of the admin application. -/
def getUser : Route where
  methods := ["GET"]
  path := "/api/v1/user/{user_id}".toList
  pathRegex := some (oneSegment "/api/v1/user/".toList [])
  endpoint := some { permissionCodes := some ["system:user:read"], isAdmin := true }

/-- `POST /{user_id}/change_password` -/
def changeUserPassword : Route where
  methods := ["POST"]
  path := "/api/v1/user/{user_id}/change_password".toList
  pathRegex := some (oneSegment "/api/v1/user/".toList "/change_password".toList)
  endpoint := some { permissionCodes := some ["system:user:modify"], isAdmin := true }

/-- `POST /admin/api/v1/user/a%3Fb/change_password` -/
def questionMark : Scope where
  method := "POST"
  scheme := "https".toList
  host := "newlife.org".toList
  path := "/admin/api/v1/user/a?b/change_password".toList
  rootPath := "/admin".toList

/-- **The request passes unchecked.**  The text is parsed into a path that ends before the `?`, and
no route serves that one. -/
theorem not_agrees : ¬ ∀ app scope, Agrees MemberWebApp.asciiText.toUrlText id app scope := by
  intro h
  have htaken : dispatched [.route getUser, .route changeUserPassword] questionMark =
      some changeUserPassword := by
    refine (List.find?_cons_of_neg ?_).trans (List.find?_cons_of_pos ?_)
    · decide +kernel
    · decide +kernel
  have hconfig := (h [.route getUser, .route changeUserPassword] questionMark).config
    changeUserPassword htaken
  have hnone : getAuthConfigFromRoute MemberWebApp.asciiText.toUrlText id
      [.route getUser, .route changeUserPassword] questionMark none = .ok none := by
    decide +kernel
  rw [hnone] at hconfig
  cases hconfig

/-! ### 4.2 A public route before a configured one -/

/-- A route without a configuration that serves what `getUser` does, and is registered first. -/
def publicUser : Route where
  methods := ["GET"]
  path := "/api/v1/user/me".toList
  pathRegex := some fun path => path = "/api/v1/user/me".toList
  endpoint := none

/-- The public route is taken, and the checks of the other one close it. -/
example : getAuthConfigFromRoute MemberWebApp.asciiText.toUrlText id
    [.route publicUser, .route getUser]
    { method := "GET", scheme := "https".toList, host := "newlife.org".toList,
      path := "/api/v1/user/me".toList } none = .ok getUser.endpoint := by
  decide +kernel

end AuthMiddleware

end NewlifeCore.Auth
