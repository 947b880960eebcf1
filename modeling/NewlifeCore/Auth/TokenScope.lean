import NewlifeCore.Auth.Sessions
import NewlifeCore.Grouping
import NewlifeCore.Text

/-!
# The scope of an access token

`JWTProvider._generate_scope` gathers the permission codes of an admin by resource, writes a
resource with the four verbs as one starred token and joins the tokens with blanks.  A reader of the
claim undoes this; what it finds are the codes again exactly when no code gets in the way of the
colon, the blank or the star.
-/

namespace NewlifeCore.Auth

namespace JWTProvider

/-! ## 1. `_generate_scope` -/

/-- `VERB_SET`. -/
def verbSet : List String := ["read", "create", "update", "delete"]

/-- `resource, verb = permission.rsplit(":", 1)`; without a colon there is one part, and two names
for it. -/
def parsePermission (permission : String) : Except AuthError (String × String) :=
  match Text.rsplitOnce ':' permission with
  | some parts => .ok parts
  | none => .error (.internal "not enough values to unpack (expected 2, got 1)")

/-- `resource_verb_map`, a dict of sets. -/
def resourceVerbMap (permissions : List String) : Except AuthError (Groups String String) :=
  (permissions.mapM parsePermission).map fun parsed =>
    Groups.collect Prod.fst (fun verbs p => Groups.addNew verbs p.2) parsed []

/-- `verbs == VERB_SET`, of sets. -/
def hasVerbSet (verbs : List String) : Bool :=
  verbs.all (verbSet.contains ·) && verbSet.all (verbs.contains ·)

def code (resource verb : String) : String := resource ++ ":" ++ verb

/-- The tokens of one resource. -/
def resourceScope (resource : String) (verbs : List String) : List String :=
  if hasVerbSet verbs then [code resource "*"] else verbs.map (code resource)

def generateScope (permissions : Option (List String)) : Except AuthError String :=
  match permissions with
  | none => .ok ""
  | some permissions =>
    if permissions.isEmpty then .ok ""
    else (resourceVerbMap permissions).map fun verbMap =>
      " ".intercalate (verbMap.flatMap fun group => resourceScope group.1 group.2)

example : generateScope (some ["system:user:read", "system:user:create", "system:user:update",
    "system:user:delete", "system:role:read"]) = .ok "system:user:* system:role:read" := by
  decide +kernel

/-! ## 2. The payload -/

/-- The claims of an access token. -/
structure ScopedPayload extends AccessTokenPayload where
  iss : String
  firstName : String
  lastName : String
  preferredName : Option String
  scope : Option String := none

/-- A user whose names are texts, as `normalize_user_for_token` leaves it. -/
structure TokenUser where
  id : UUID
  email : Option String
  firstName : String
  lastName : String
  preferredName : Option String := none

/-- What the provider is built with. -/
structure JwtSettings where
  Text : Type
  /-- `jwt.encode` under the key of the provider. -/
  encode : ScopedPayload → Text
  issuer : String
  appName : String
  accessTokenExpireMinutes : Int

/-- The arguments of a call. -/
structure TokenRequest where
  user : TokenUser
  familyId : UUID
  roles : Option (List String) := none
  permissions : Option (List String) := none
  audType : AccessTokenAudType := .user
  expiresDelta : Option Int := none
  azp : Option String := none

variable (jwt : JwtSettings) (now : Int)

/-- A delta of no length is as good as none. -/
def expire (request : TokenRequest) : Int :=
  now + (request.expiresDelta.filter fun delta => delta ≠ 0).getD
    (jwt.accessTokenExpireMinutes * minuteMicros)

/-- Only an admin's token has roles and a scope, and only a member's an authorized party. -/
def accessTokenPayload (request : TokenRequest) : Except AuthError ScopedPayload :=
  let payload (email aud : String) : ScopedPayload :=
    { sub := request.user.id, exp := expire jwt now request / secondMicros, aud
      iat := now / secondMicros, userId := request.user.id, email, familyId := request.familyId
      iss := jwt.issuer, firstName := request.user.firstName, lastName := request.user.lastName
      preferredName := request.user.preferredName }
  match request.audType with
  | .admin =>
    (generateScope request.permissions).bind fun scope =>
      match request.user.email with
      | none => .error (.internal "validation error for AccessTokenPayload")
      | some email =>
        .ok { payload email (jwt.appName ++ "-admin") with
              roles := request.roles, scope := some scope }
  | .user =>
    match request.user.email with
    | none => .error (.internal "validation error for AccessTokenPayload")
    | some email => .ok { payload email (jwt.appName ++ "-app") with azp := request.azp }

def createScopedToken (request : TokenRequest) : Except AuthError jwt.Text :=
  (accessTokenPayload jwt now request).map jwt.encode

/-! ## 3. Reading a scope -/

/-- `r:*` stands for the four verbs on `r`. -/
def expandToken (token : String) : List String :=
  match Text.rsplitOnce ':' token with
  | some (resource, "*") => verbSet.map (code resource)
  | _ => [token]

/-- The permissions a scope claim stands for. -/
def expandScope (scope : String) : List String :=
  (((scope.toList.splitOn ' ').filter (· ≠ [])).map String.ofList).flatMap expandToken

/-- **The scope encodes the permissions**: the token is made, and its scope stands for exactly the
codes that were granted. -/
def ScopeEncodes (request : TokenRequest) (permissions : List String) : Prop :=
  ∃ payload scope, accessTokenPayload jwt now request = .ok payload ∧
    createScopedToken jwt now request = .ok (jwt.encode payload) ∧ payload.scope = some scope ∧
    ∀ permission, permission ∈ expandScope scope ↔ permission ∈ permissions

/-- A code that can be read back: it has a colon, no blank, and its last part is no star. -/
structure Readable (permission : String) : Prop where
  colon : ':' ∈ permission.toList
  noBlank : ' ' ∉ permission.toList
  noStar : ∀ resource, permission ≠ code resource "*"

/-! ## 4. Codes and tokens -/

theorem rsplitOnce_eq_some_iff {permission resource verb : String} :
    Text.rsplitOnce ':' permission = some (resource, verb) ↔
      permission = code resource verb ∧ ':' ∉ verb.toList := Text.rsplitOnce_eq_some_iff

theorem rsplitOnce_code {resource verb : String} (h : ':' ∉ verb.toList) :
    Text.rsplitOnce ':' (code resource verb) = some (resource, verb) :=
  rsplitOnce_eq_some_iff.mpr ⟨rfl, h⟩

theorem toList_code (resource verb : String) :
    (code resource verb).toList = resource.toList ++ ':' :: verb.toList := by
  simp [code]

theorem verbSet_colonless : ∀ verb ∈ verbSet, ':' ∉ verb.toList ∧ ' ' ∉ verb.toList ∧ verb ≠ "*" := by
  decide

theorem star_colonless : ':' ∉ "*".toList := by decide

theorem code_injective {resource resource' verb verb' : String} (h : ':' ∉ verb.toList)
    (h' : ':' ∉ verb'.toList) (heq : code resource verb = code resource' verb') :
    resource = resource' ∧ verb = verb' := by
  have hsplit : Text.rsplitOnce ':' (code resource verb) = some (resource, verb) :=
    rsplitOnce_code h
  rw [heq, rsplitOnce_code h'] at hsplit
  exact ⟨(Prod.mk.inj (Option.some.inj hsplit)).1.symm, (Prod.mk.inj (Option.some.inj hsplit)).2.symm⟩

theorem expandToken_star (resource : String) :
    expandToken (code resource "*") = verbSet.map (code resource) := by
  unfold expandToken
  rw [rsplitOnce_code star_colonless]
  rfl

theorem expandToken_plain {token : String} (h : ∀ resource, token ≠ code resource "*") :
    expandToken token = [token] := by
  unfold expandToken
  split
  · rename_i resource hsplit
    exact absurd (rsplitOnce_eq_some_iff.mp hsplit).1 (h resource)
  · rfl

/-- What a token stands for is never starred, and has blanks only where the token has. -/
theorem mem_expandToken {token permission : String} (h : permission ∈ expandToken token) :
    (' ' ∉ token.toList → ' ' ∉ permission.toList) ∧ ∀ resource, permission ≠ code resource "*" := by
  by_cases hstar : ∃ resource, token = code resource "*"
  · obtain ⟨resource, rfl⟩ := hstar
    rw [expandToken_star] at h
    obtain ⟨verb, hverb, rfl⟩ := List.mem_map.mp h
    obtain ⟨hcolon, hblank, hne⟩ := verbSet_colonless verb hverb
    refine ⟨fun htoken => ?_, fun resource' heq => hne ?_⟩
    · rw [toList_code] at htoken ⊢
      simp only [List.mem_append, List.mem_cons, not_or] at htoken ⊢
      exact ⟨htoken.1, by decide, hblank⟩
    · exact (code_injective hcolon star_colonless heq).2
  · rw [not_exists] at hstar
    rw [expandToken_plain hstar, List.mem_singleton] at h
    subst h
    exact ⟨id, hstar⟩

/-- No code that a scope stands for has a blank or a star. -/
theorem mem_expandScope {scope permission : String} (h : permission ∈ expandScope scope) :
    ' ' ∉ permission.toList ∧ ∀ resource, permission ≠ code resource "*" := by
  obtain ⟨token, htoken, h⟩ := List.mem_flatMap.mp h
  obtain ⟨chars, hchars, rfl⟩ := List.mem_map.mp htoken
  have hblank : ' ' ∉ chars := Text.not_mem_of_mem_splitOn (List.mem_filter.mp hchars).1
  refine ⟨(mem_expandToken h).1 ?_, (mem_expandToken h).2⟩
  rwa [String.toList_ofList]

/-- Tokens joined by blanks are the tokens of the text. -/
theorem expandScope_intercalate {tokens : List String}
    (h : ∀ token ∈ tokens, ' ' ∉ token.toList ∧ token ≠ "") :
    expandScope (" ".intercalate tokens) = tokens.flatMap expandToken := by
  by_cases hempty : tokens = []
  · subst hempty
    decide
  · have hsplit : (" ".intercalate tokens).toList.splitOn ' ' = tokens.map String.toList := by
      rw [String.toList_intercalate]
      refine List.splitOn_intercalate ' ' (fun l hl => ?_) (by simpa using hempty)
      obtain ⟨token, htoken, rfl⟩ := List.mem_map.mp hl
      exact (h token htoken).1
    have hkept : (tokens.map String.toList).filter (· ≠ []) = tokens.map String.toList := by
      refine List.filter_eq_self.mpr fun l hl => ?_
      obtain ⟨token, htoken, rfl⟩ := List.mem_map.mp hl
      simpa using (h token htoken).2
    rw [expandScope, hsplit, hkept, List.map_map]
    congr 1
    simp [Function.comp_def]

/-! ## 5. The tokens of a list of codes -/

theorem parsePermission_eq_ok_iff {permission resource verb : String} :
    parsePermission permission = .ok (resource, verb) ↔
      permission = code resource verb ∧ ':' ∉ verb.toList := by
  rw [← rsplitOnce_eq_some_iff, parsePermission]
  cases Text.rsplitOnce ':' permission <;> simp

theorem exists_code {permission : String} (h : ':' ∈ permission.toList) :
    ∃ resource verb, permission = code resource verb ∧ ':' ∉ verb.toList := by
  cases hsplit : Text.rsplitOnce ':' permission with
  | none => exact absurd h (Text.rsplitOnce_eq_none_iff.mp hsplit)
  | some parts => exact ⟨parts.1, parts.2, rsplitOnce_eq_some_iff.mp hsplit⟩

/-- Every code has a colon, or the loop raises. -/
theorem mapM_parsePermission {permissions : List String} :
    (∀ permission ∈ permissions, ':' ∈ permission.toList) ↔
      ∃ parsed, permissions.mapM parsePermission = .ok parsed := by
  induction permissions with
  | nil => exact ⟨fun _ => ⟨[], rfl⟩, fun _ _ h => nomatch h⟩
  | cons permission permissions ih =>
    rw [List.forall_mem_cons, ih, List.mapM_cons]
    cases hparse : parsePermission permission with
    | error e =>
      have hno : ':' ∉ permission.toList := by
        rw [← Text.rsplitOnce_eq_none_iff]
        unfold parsePermission at hparse
        cases hsplit : Text.rsplitOnce ':' permission with
        | none => rfl
        | some parts => rw [hsplit] at hparse; cases hparse
      exact ⟨fun h => absurd h.1 hno, fun ⟨_, h⟩ => nomatch h⟩
    | ok parts =>
      have hcolon : ':' ∈ permission.toList := by
        obtain ⟨h, -⟩ := parsePermission_eq_ok_iff.mp (show parsePermission permission =
          .ok (parts.1, parts.2) from hparse)
        rw [h, toList_code]
        exact List.mem_append_right _ List.mem_cons_self
      constructor
      · rintro ⟨-, parsed, h⟩
        exact ⟨parts :: parsed, by rw [h]; rfl⟩
      · rintro ⟨parsed, h⟩
        cases hrest : permissions.mapM parsePermission with
        | error e => rw [hrest] at h; cases h
        | ok rest => exact ⟨hcolon, rest, rfl⟩

/-- What the loop has parsed: the codes, each cut at its last colon. -/
theorem parsed_codes {permissions : List String} {parsed : List (String × String)}
    (h : permissions.mapM parsePermission = .ok parsed) :
    parsed.map (fun p => code p.1 p.2) = permissions ∧ ∀ p ∈ parsed, ':' ∉ p.2.toList := by
  induction permissions generalizing parsed with
  | nil =>
    cases h
    exact ⟨rfl, fun _ h => nomatch h⟩
  | cons permission permissions ih =>
    rw [List.mapM_cons] at h
    cases hparse : parsePermission permission with
    | error e => rw [hparse] at h; cases h
    | ok parts =>
      cases hrest : permissions.mapM parsePermission with
      | error e => rw [hparse, hrest] at h; cases h
      | ok rest =>
        rw [hparse, hrest] at h
        cases h
        obtain ⟨hcode, hcolon⟩ := parsePermission_eq_ok_iff.mp (show parsePermission permission =
          .ok (parts.1, parts.2) from hparse)
        obtain ⟨hcodes, hcolons⟩ := ih hrest
        exact ⟨by rw [List.map_cons, hcodes, ← hcode], List.forall_mem_cons.mpr ⟨hcolon, hcolons⟩⟩

/-- **The verbs under a resource** are those that its codes end in. -/
theorem mem_resourceVerbMap {permissions : List String} {verbMap : Groups String String}
    (h : resourceVerbMap permissions = .ok verbMap) :
    (Groups.keys verbMap).Nodup ∧ ∀ resource verb, verb ∈ Groups.valuesAt resource verbMap ↔
      code resource verb ∈ permissions ∧ ':' ∉ verb.toList := by
  unfold resourceVerbMap at h
  cases hparsed : permissions.mapM parsePermission with
  | error e => rw [hparsed] at h; cases h
  | ok parsed =>
    rw [hparsed] at h
    cases h
    obtain ⟨hcodes, hcolons⟩ := parsed_codes hparsed
    refine ⟨Groups.nodup_keys_collect List.nodup_nil, fun resource verb => ?_⟩
    have hadded := (Groups.foldl_addNew Prod.snd (parsed.filter fun p => p.1 = resource)
      List.nodup_nil).2 verb
    rw [Groups.valuesAt_collect, ← hcodes, List.mem_map]
    refine hadded.trans ⟨?_, ?_⟩
    · rintro (hnil | ⟨p, hp, rfl⟩)
      · cases hnil
      · obtain ⟨hp, hkey⟩ := List.mem_filter.mp hp
        exact ⟨⟨p, hp, by rw [of_decide_eq_true hkey]⟩, hcolons p hp⟩
    · rintro ⟨⟨p, hp, heq⟩, hverb⟩
      obtain ⟨rfl, rfl⟩ := code_injective (hcolons p hp) hverb heq
      exact .inr ⟨p, List.mem_filter.mpr ⟨hp, decide_eq_true rfl⟩, rfl⟩

/-- A group is written as tokens that stand for its codes. -/
theorem mem_expand_resourceScope {resource : String} {verbs : List String}
    (hstar : "*" ∉ verbs) (hcolon : ∀ verb ∈ verbs, ':' ∉ verb.toList) (permission : String) :
    permission ∈ (resourceScope resource verbs).flatMap expandToken ↔
      ∃ verb ∈ verbs, permission = code resource verb := by
  unfold resourceScope
  split
  · rename_i hset
    unfold hasVerbSet at hset
    rw [Bool.and_eq_true, List.all_eq_true, List.all_eq_true] at hset
    have hverbs : ∀ verb, verb ∈ verbs ↔ verb ∈ verbSet := fun verb =>
      ⟨fun h => List.contains_iff_mem.mp (hset.1 verb h),
        fun h => List.contains_iff_mem.mp (hset.2 verb h)⟩
    rw [List.flatMap_singleton, expandToken_star, List.mem_map]
    simp only [hverbs, eq_comm]
  · have hplain : ∀ verb ∈ verbs, expandToken (code resource verb) = [code resource verb] := by
      intro verb hverb
      refine expandToken_plain fun resource' heq => hstar ?_
      rw [← (code_injective (hcolon verb hverb) star_colonless heq).2]
      exact hverb
    rw [List.flatMap_map, List.flatMap_congr hplain]
    simp

/-- A token is never empty, and has blanks only where a code has. -/
theorem resourceScope_tokens {resource : String} {verbs : List String}
    (h : ∀ verb ∈ verbs, ' ' ∉ (code resource verb).toList) :
    ∀ token ∈ resourceScope resource verbs, ' ' ∉ token.toList ∧ token ≠ "" := by
  have hne : ∀ verb, code resource verb ≠ "" := fun verb heq => by
    have hlist := congrArg String.toList heq
    rw [toList_code] at hlist
    simp at hlist
  intro token htoken
  unfold resourceScope at htoken
  split at htoken
  · rename_i hset
    have hread : "read" ∈ verbs := by
      unfold hasVerbSet at hset
      rw [Bool.and_eq_true, List.all_eq_true, List.all_eq_true] at hset
      exact List.contains_iff_mem.mp (hset.2 "read" (by decide))
    rw [List.mem_singleton.mp htoken]
    refine ⟨fun hblank => h "read" hread ?_, hne _⟩
    rw [toList_code, List.mem_append] at hblank ⊢
    exact hblank.imp_right fun hb => absurd hb (by decide)
  · obtain ⟨verb, hverb, rfl⟩ := List.mem_map.mp htoken
    exact ⟨h verb hverb, hne verb⟩

/-- **Readable codes are read back.** -/
theorem expandScope_generateScope {permissions : List String}
    (h : ∀ permission ∈ permissions, Readable permission) :
    ∃ scope, generateScope (some permissions) = .ok scope ∧
      ∀ permission, permission ∈ expandScope scope ↔ permission ∈ permissions := by
  by_cases hempty : permissions = []
  · subst hempty
    exact ⟨"", rfl, fun _ => by simp [show expandScope "" = [] by decide]⟩
  · obtain ⟨parsed, hparsed⟩ := mapM_parsePermission.mp fun p hp => (h p hp).colon
    have hmap : resourceVerbMap permissions =
        .ok (Groups.collect Prod.fst (fun verbs p => Groups.addNew verbs p.2) parsed []) := by
      rw [resourceVerbMap, hparsed]
      rfl
    generalize Groups.collect Prod.fst (fun verbs p => Groups.addNew verbs p.2) parsed [] =
      verbMap at hmap
    obtain ⟨hkeys, hverbs⟩ := mem_resourceVerbMap hmap
    refine ⟨" ".intercalate (verbMap.flatMap fun group => resourceScope group.1 group.2), ?_, ?_⟩
    · rw [generateScope, if_neg (by simpa using hempty), hmap]
      rfl
    have hgroup : ∀ group ∈ verbMap, ∀ verb, verb ∈ group.2 ↔
        code group.1 verb ∈ permissions ∧ ':' ∉ verb.toList := fun group hg verb => by
      rw [← hverbs, Groups.valuesAt_of_mem hkeys hg]
    have htokens : ∀ token ∈ verbMap.flatMap fun group => resourceScope group.1 group.2,
        ' ' ∉ token.toList ∧ token ≠ "" := by
      intro token htoken
      obtain ⟨group, hg, htoken⟩ := List.mem_flatMap.mp htoken
      exact resourceScope_tokens (fun verb hverb => (h _ ((hgroup group hg verb).mp hverb).1).noBlank)
        token htoken
    intro permission
    rw [expandScope_intercalate htokens, List.flatMap_assoc, List.mem_flatMap]
    constructor
    · rintro ⟨group, hg, hmem⟩
      have hstar : "*" ∉ group.2 := fun hstar =>
        (h _ ((hgroup group hg "*").mp hstar).1).noStar _ rfl
      obtain ⟨verb, hverb, rfl⟩ := (mem_expand_resourceScope hstar
        (fun verb hverb => ((hgroup group hg verb).mp hverb).2) permission).mp hmem
      exact ((hgroup group hg verb).mp hverb).1
    · intro hmem
      obtain ⟨resource, verb, rfl, hcolon⟩ := exists_code (h permission hmem).colon
      have hverb := (hverbs resource verb).mpr ⟨hmem, hcolon⟩
      have hg := Groups.mem_of_mem_valuesAt hverb
      refine ⟨_, hg, (mem_expand_resourceScope (fun hstar => ?_) (fun verb hverb => ?_) _).mpr
        ⟨verb, hverb, rfl⟩⟩
      · exact (h _ ((hgroup _ hg "*").mp hstar).1).noStar _ rfl
      · exact ((hgroup _ hg verb).mp hverb).2

/-! ## 6. When the scope encodes the permissions -/

theorem generateScope_colon {permissions : List String} {scope : String}
    (h : generateScope (some permissions) = .ok scope) :
    ∀ permission ∈ permissions, ':' ∈ permission.toList := by
  rw [mapM_parsePermission]
  by_cases hempty : permissions = []
  · subst hempty
    exact ⟨[], rfl⟩
  · rw [generateScope, if_neg (by simpa using hempty), resourceVerbMap] at h
    cases hparsed : permissions.mapM parsePermission with
    | error e => rw [hparsed] at h; cases h
    | ok parsed => exact ⟨parsed, rfl⟩

/-- An admin's request for a token. -/
def adminRequest (request : TokenRequest) (email : String) (permissions : List String) :
    TokenRequest :=
  { request with
    audType := .admin
    user := { request.user with email := some email }
    permissions := some permissions }

variable {jwt now}

/-- What is made for an admin is made around the scope. -/
theorem accessTokenPayload_scope {request : TokenRequest} {email : String}
    {permissions : List String} {payload : ScopedPayload} :
    accessTokenPayload jwt now (adminRequest request email permissions) = .ok payload →
      ∃ scope, generateScope (some permissions) = .ok scope ∧ payload.scope = some scope := by
  intro h
  unfold accessTokenPayload adminRequest at h
  cases hscope : generateScope (some permissions) with
  | error e => rw [hscope] at h; cases h
  | ok scope =>
    rw [hscope] at h
    cases h
    exact ⟨scope, rfl, rfl⟩

theorem accessTokenPayload_ok {request : TokenRequest} {email : String} {permissions : List String}
    {scope : String} (h : generateScope (some permissions) = .ok scope) :
    ∃ payload, accessTokenPayload jwt now (adminRequest request email permissions) = .ok payload ∧
      payload.scope = some scope := by
  unfold accessTokenPayload adminRequest
  rw [h]
  exact ⟨_, rfl, rfl⟩

/-- Where the scope encodes the codes, each of them can be read back. -/
theorem ScopeEncodes.readable {request : TokenRequest} {email : String} {permissions : List String}
    (h : ScopeEncodes jwt now (adminRequest request email permissions) permissions) :
    ∀ permission ∈ permissions, Readable permission := by
  obtain ⟨payload, scope, hpayload, -, hscope, hmem⟩ := h
  obtain ⟨scope', hgenerate, hscope'⟩ := accessTokenPayload_scope hpayload
  obtain rfl : scope' = scope := Option.some.inj (hscope'.symm.trans hscope)
  intro permission hpermission
  obtain ⟨hblank, hstar⟩ := mem_expandScope ((hmem permission).mpr hpermission)
  exact ⟨generateScope_colon hgenerate permission hpermission, hblank, hstar⟩

/-- **When an admin's scope encodes the granted permissions**: exactly if every code has a colon, no
blank, and does not end in the star. -/
theorem scope_encodes_iff (jwt : JwtSettings) (now : Int) (request : TokenRequest) (email : String)
    (permissions : List String) :
    ScopeEncodes jwt now (adminRequest request email permissions) permissions ↔
      ∀ permission ∈ permissions, Readable permission := by
  refine ⟨ScopeEncodes.readable, fun h => ?_⟩
  obtain ⟨scope, hgenerate, hmem⟩ := expandScope_generateScope h
  obtain ⟨payload, hpayload, hscope⟩ := accessTokenPayload_ok hgenerate
  exact ⟨payload, scope, hpayload, by rw [createScopedToken, hpayload]; rfl, hscope, hmem⟩

/-- **The session model's token** carries the claims of this payload that are read again. -/
theorem createAccessToken_exec (settings : AuthSettings) (encode : ScopedPayload → String)
    (issuer : String) {user : AuthUser} {profile : AuthUserProfile} {familyId : UUID}
    {roles permissions : Option (List String)} {payload : ScopedPayload} {t : Int}
    (h : accessTokenPayload
      ⟨String, encode, issuer, settings.appName, settings.accessTokenExpireMinutes⟩ t
      { user := ⟨user.id, user.email, profile.firstName, profile.lastName, profile.preferredName⟩
        familyId, roles, permissions, audType := .admin } = .ok payload)
    (m : Txn.Midway Db Redis) :
    (createAccessToken settings user familyId .admin roles none).exec m t =
      (.ok (settings.jwt.encode payload.toAccessTokenPayload), m) := by
  unfold accessTokenPayload at h
  unfold createAccessToken
  cases hscope : generateScope permissions with
  | error e => rw [hscope] at h; cases h
  | ok scope =>
    rw [hscope] at h
    cases hemail : user.email with
    | none => rw [hemail] at h; cases h
    | some email =>
      rw [hemail] at h
      cases h
      rfl

/-- A provider that does not sign. -/
def plainJwt : JwtSettings where
  Text := ScopedPayload
  encode := id
  issuer := "https://localhost"
  appName := "newlife"
  accessTokenExpireMinutes := 60

/-- A login of an admin. -/
def adminLogin (permissions : List String) : TokenRequest :=
  adminRequest { user := ⟨1, none, "Ann", "Lee", none⟩, familyId := 2 } "ann@efcnewlife.org"
    permissions

/-- **Three codes that the scope does not encode**: without a colon the login fails, a blank splits
the code, and a star stands for four others. -/
theorem scope_not_encodes :
    ¬ ScopeEncodes plainJwt 0 (adminLogin ["dashboard"]) ["dashboard"] ∧
      ¬ ScopeEncodes plainJwt 0 (adminLogin ["news letter:read"]) ["news letter:read"] ∧
      ¬ ScopeEncodes plainJwt 0 (adminLogin ["system:user:*"]) ["system:user:*"] := by
  refine ⟨fun h => ?_, fun h => ?_, fun h => ?_⟩
  · exact absurd (h.readable _ List.mem_cons_self).colon (by decide)
  · exact absurd (h.readable _ List.mem_cons_self).noBlank (by decide)
  · exact (h.readable _ List.mem_cons_self).noStar "system:user" (by decide)

end JWTProvider

end NewlifeCore.Auth
