import Mathlib.Data.List.Infix
import NewlifeCore.Facility.Constants
import NewlifeCore.Json

/-!
# What a `LogRoute` logs

A route logs its request and its response.  The query and a JSON request body are masked under
sensitive keys, the response body is logged as it is; so what two exchanges that differ under
sensitive keys alone leave in the log is a matter of their responses.
-/

namespace NewlifeCore.Api

/-! ## 1. The route -/

/-- `settings.SENSITIVE_PARAMS`, `str.lower()`, the texts of a `UnicodeDecodeError`, and
`json.loads` with the texts that `json.dumps` has for what is no string, list or dict. -/
structure LogEnv (β : Type) where
  sensitiveParams : List String
  lower : String → String
  decodeError : ByteArray → String
  loads : String → Option (Json β)
  leaves : Json.LeafTexts β
  loads_blank : ∀ text, strip text = "" → loads text = none

structure Request where
  method : String
  path : String
  queryParams : List (String × String)
  body : ByteArray

/-- A response; one that is streamed has no `body`. -/
structure Response where
  type : String
  statusCode : Nat
  body : Except String ByteArray

structure RequestMessage where
  method : String
  path : String
  params : List (String × String)
  body : Option String

structure ResponseMessage where
  type : String
  statusCode : Nat
  duration : Int
  body : String

inductive LogRecord
  | request (message : RequestMessage)
  | response (message : ResponseMessage)
  | warning (text : String)

/-- `d[key] = value`. -/
def setItem (key value : String) : List (String × String) → List (String × String)
  | [] => [(key, value)]
  | (k, v) :: d => if k = key then (k, value) :: d else (k, v) :: setItem key value d

/-- `dict(query_params)`: a repeated key has its last value. -/
def dictOf (items : List (String × String)) : List (String × String) :=
  items.foldl (fun d item => setItem item.1 item.2 d) []

namespace LogRoute

variable {β : Type} (env : LogEnv β)

def isSensitiveKey (key : String) : Bool :=
  env.sensitiveParams.any fun word => decide (word.toList <:+: (env.lower key).toList)

def mask : String := "********"

def filterSensitiveParams (params : List (String × String)) : List (String × String) :=
  params.map fun p => (p.1, if isSensitiveKey env p.1 then mask else p.2)

def filterSensitiveData (data : Json β) : Json β := data.redact (isSensitiveKey env) mask

def filterRequestBody (body : String) : String :=
  if body = "" || strip body = "" then body
  else match env.loads body with
  | none => body
  | some data => Json.dumps env.leaves (filterSensitiveData env data)

/-- `body.decode()`. -/
def decode (body : ByteArray) : Except String String :=
  match String.fromUTF8? body with
  | some text => .ok text
  | none => .error (env.decodeError body)

def logsBody (request : Request) : Bool := ["POST", "PUT", "PATCH"].contains request.method

def requestRecords (request : Request) : List LogRecord :=
  let message := fun body => LogRecord.request {
    method := request.method, path := request.path
    params := filterSensitiveParams env (dictOf request.queryParams), body }
  if logsBody request then
    match decode env request.body with
    | .ok text => [message (some (filterRequestBody env text))]
    | .error e => [.warning ("Request body logging skipped: " ++ e), message (some "")]
  else [message none]

/-- The text of a response, or why there is none. -/
def responseText (response : Response) : Except String String :=
  match response.body with
  | .ok body => decode env body
  | .error e => .error e

def responseRecords (response : Response) (duration : Int) : List LogRecord :=
  let message := fun body => LogRecord.response {
    type := response.type, statusCode := response.statusCode, duration, body }
  match responseText env response with
  | .ok text => [message text]
  | .error e => [.warning ("Response body logging skipped: " ++ e), message ""]

/-- What an exchange leaves in the log. -/
def routeHandler (request : Request) (response : Response) (duration : Int) : List LogRecord :=
  requestRecords env request ++ responseRecords env response duration

end LogRoute

/-! ## 2. Exchanges that differ under some keys -/

/-- Parameters differ under hidden keys alone. -/
def SameParams (hidden : String → Bool) : List (String × String) → List (String × String) → Prop
  | [], [] => True
  | (k, v) :: l, (k', v') :: l' => k = k' ∧ (hidden k = false → v = v') ∧ SameParams hidden l l'
  | _, _ => False

namespace LogRoute

variable {β : Type} (env : LogEnv β) (hidden : String → Bool)

/-- Bodies are equal, or they are JSON documents that differ under hidden keys alone. -/
def SameBody (b b' : ByteArray) : Prop :=
  b = b' ∨ ∃ text text' v v', decode env b = .ok text ∧ decode env b' = .ok text' ∧
    env.loads text = some v ∧ env.loads text' = some v' ∧ Json.SameBut hidden v v'

/-- The same for the bodies of responses. -/
def SameResponseBody : Except String ByteArray → Except String ByteArray → Prop
  | .ok b, .ok b' => SameBody env hidden b b'
  | .error e, .error e' => e = e'
  | _, _ => False

/-- **Two exchanges differ under hidden keys alone**, in the query, the JSON request body or the
JSON response body. -/
structure Alike (x x' : Request × Response) : Prop where
  method : x.1.method = x'.1.method
  path : x.1.path = x'.1.path
  params : SameParams hidden x.1.queryParams x'.1.queryParams
  body : SameBody env hidden x.1.body x'.1.body
  type : x.2.type = x'.2.type
  statusCode : x.2.statusCode = x'.2.statusCode
  responseBody : SameResponseBody env hidden x.2.body x'.2.body

/-- A key has a sensitive word in it, in any letter case. -/
def containsSensitive (key : String) : Bool :=
  env.sensitiveParams.any fun word => decide ((env.lower word).toList <:+: (env.lower key).toList)

/-- A record but for the measured duration. -/
def untimed : LogRecord → LogRecord
  | .response message => .response { message with duration := 0 }
  | r => r

/-- **The log tells two exchanges apart by their durations at most.** -/
def Indistinguishable (x x' : Request × Response) : Prop :=
  ∀ d d', (routeHandler env x.1 x.2 d).map untimed = (routeHandler env x'.1 x'.2 d').map untimed

/-- What the code masks: everything that differs in the query and the logged request body is under
keys that the route takes for sensitive, and the texts of the responses are the same. -/
structure Masked (x x' : Request × Response) : Prop where
  params : SameParams (isSensitiveKey env) (dictOf x.1.queryParams) (dictOf x'.1.queryParams)
  body : logsBody x.1 = true → SameBody env (isSensitiveKey env) x.1.body x'.1.body
  response : responseText env x.2 = responseText env x'.2

variable {env hidden}

theorem filterSensitiveParams_eq_iff : ∀ params params' : List (String × String),
    filterSensitiveParams env params = filterSensitiveParams env params' ↔
      SameParams (isSensitiveKey env) params params'
  | [], params' => by cases params' <;> simp [filterSensitiveParams, SameParams]
  | _ :: _, [] => by simp [filterSensitiveParams, SameParams]
  | (k, v) :: params, (k', v') :: params' => by
    have ih := filterSensitiveParams_eq_iff params params'
    unfold filterSensitiveParams at ih ⊢
    simp only [List.map_cons, List.cons.injEq, Prod.mk.injEq, SameParams, and_assoc, ih]
    refine and_congr_right fun hk => and_congr_left' ?_
    obtain rfl := hk
    cases isSensitiveKey env k <;> simp

/-- A JSON body is logged masked. -/
theorem filterRequestBody_json {text : String} {v : Json β} (h : env.loads text = some v) :
    filterRequestBody env text = Json.dumps env.leaves (filterSensitiveData env v) := by
  have hblank : ¬ strip text = "" := by
    intro hblank
    rw [env.loads_blank text hblank] at h
    cases h
  have hne : ¬ text = "" := by
    rintro rfl
    exact hblank rfl
  unfold filterRequestBody
  simp only [hne, hblank, decide_false, Bool.or_self, Bool.false_eq_true, if_false, h]

/-- **Masked JSON bodies are equal exactly if the bodies differ under the code's keys alone.** -/
theorem filterRequestBody_eq_iff {text text' : String} {v v' : Json β}
    (h : env.loads text = some v) (h' : env.loads text' = some v') :
    filterRequestBody env text = filterRequestBody env text' ↔
      Json.SameBut (isSensitiveKey env) v v' := by
  rw [filterRequestBody_json h, filterRequestBody_json h', Json.dumps_injective.eq_iff]
  exact Json.redact_eq_iff v v'

theorem sameBody_json {b b' : ByteArray} {text text' : String} {v v' : Json β}
    (hb : decode env b = .ok text) (hb' : decode env b' = .ok text')
    (h : env.loads text = some v) (h' : env.loads text' = some v') :
    SameBody env hidden b b' ↔ Json.SameBut hidden v v' := by
  constructor
  · rintro (rfl | ⟨t, t', w, w', ht, ht', hw, hw', hsame⟩)
    · obtain rfl := Except.ok.inj (hb.symm.trans hb')
      obtain rfl := Option.some.inj (h.symm.trans h')
      exact .refl v
    · obtain rfl := Except.ok.inj (hb.symm.trans ht)
      obtain rfl := Except.ok.inj (hb'.symm.trans ht')
      obtain rfl := Option.some.inj (h.symm.trans hw)
      obtain rfl := Option.some.inj (h'.symm.trans hw')
      exact hsame
  · exact fun hsame => .inr ⟨text, text', v, v', hb, hb', h, h', hsame⟩

/-! ## 3. What the log shows -/

section Exchanges

variable {x x' : Request × Response}

/-- Requests alike leave as many records. -/
theorem Alike.requests_length (h : Alike env hidden x x') :
    (requestRecords env x.1).length = (requestRecords env x'.1).length := by
  have hlogs : logsBody x.1 = logsBody x'.1 := by
    unfold logsBody
    rw [h.method]
  unfold requestRecords
  rw [hlogs]
  cases logsBody x'.1 with
  | false => rfl
  | true =>
    rcases h.body with hbody | ⟨text, text', -, -, htext, htext', -, -, -⟩
    · rw [hbody]
      cases decode env x'.1.body <;> rfl
    · rw [htext, htext']
      rfl

theorem Alike.requests_eq_iff (h : Alike env hidden x x') :
    requestRecords env x.1 = requestRecords env x'.1 ↔
      SameParams (isSensitiveKey env) (dictOf x.1.queryParams) (dictOf x'.1.queryParams) ∧
        (logsBody x.1 = true → SameBody env (isSensitiveKey env) x.1.body x'.1.body) := by
  have hlogs : logsBody x.1 = logsBody x'.1 := by
    unfold logsBody
    rw [h.method]
  rw [← filterSensitiveParams_eq_iff]
  unfold requestRecords
  rw [hlogs]
  cases logsBody x'.1 with
  | false => simp [h.method, h.path]
  | true =>
    rcases h.body with hbody | ⟨text, text', v, v', htext, htext', hv, hv', -⟩
    · rw [hbody]
      cases decode env x'.1.body <;> simp [h.method, h.path, SameBody]
    · rw [htext, htext', sameBody_json htext htext' hv hv', ← filterRequestBody_eq_iff hv hv']
      simp [h.method, h.path]

theorem Alike.responses_eq_iff (h : Alike env hidden x x') {d d' : Int} :
    (responseRecords env x.2 d).map untimed = (responseRecords env x'.2 d').map untimed ↔
      responseText env x.2 = responseText env x'.2 := by
  unfold responseRecords
  cases responseText env x.2 with
  | ok text =>
    cases responseText env x'.2 with
    | ok text' => simp [untimed, h.type, h.statusCode]
    | error e' => simp [untimed]
  | error e =>
    cases responseText env x'.2 with
    | ok text' => simp [untimed]
    | error e' => simp [untimed, h.type, h.statusCode]

theorem untimed_requests (request : Request) :
    (requestRecords env request).map untimed = requestRecords env request := by
  unfold requestRecords
  split
  · split <;> rfl
  · rfl

/-- **When the log hides what differs under sensitive keys**: exactly if the route masks it, and
the response has none of it. -/
theorem indistinguishable_iff (h : Alike env (containsSensitive env) x x') :
    Indistinguishable env x x' ↔ Masked env x x' := by
  have hsplit : ∀ d d', (routeHandler env x.1 x.2 d).map untimed =
      (routeHandler env x'.1 x'.2 d').map untimed ↔ Masked env x x' := by
    intro d d'
    unfold routeHandler
    rw [List.map_append, List.map_append, untimed_requests, untimed_requests]
    constructor
    · intro heq
      obtain ⟨hrequests, hresponses⟩ := List.append_inj heq h.requests_length
      obtain ⟨hparams, hbody⟩ := h.requests_eq_iff.mp hrequests
      exact ⟨hparams, hbody, h.responses_eq_iff.mp hresponses⟩
    · intro hmasked
      rw [h.requests_eq_iff.mpr ⟨hmasked.params, hmasked.body⟩,
        h.responses_eq_iff.mpr hmasked.response]
  exact ⟨fun hall => (hsplit 0 0).mp (hall 0 0), fun hmasked d d' => (hsplit d d').mpr hmasked⟩

end Exchanges

/-! ## 4. A token in the log -/

/-- What a login returns. -/
def granted (token : String) : Json (Option Bool) := .obj [("accessToken", .str token)]

def sampleEnv : LogEnv (Option Bool) where
  sensitiveParams := ["token", "secret", "password"]
  lower := String.toLower
  decodeError _ := "invalid start byte"
  loads text := ([granted "a", granted "b"]).find? fun v => Json.dumps Json.constants v = text
  leaves := Json.constants
  loads_blank text hblank := by
    rw [List.find?_eq_none]
    intro v hv htext
    obtain rfl := of_decide_eq_true htext
    revert hblank
    rcases List.mem_pair.mp hv with rfl | rfl <;> decide

/-- A login that returned a token. -/
def login (token : String) : Request × Response :=
  (⟨"POST", "/api/v1/auth/login", [], ByteArray.empty⟩,
    ⟨"JSONResponse", 200, .ok (Json.dumps Json.constants (granted token)).toUTF8⟩)

theorem decode_toUTF8 {β : Type} (env : LogEnv β) (text : String) :
    decode env text.toUTF8 = .ok text := by
  have hread : String.fromUTF8? text.toUTF8 = some text := dif_pos text.isValidUTF8
  unfold decode
  rw [hread]

theorem loads_granted {token : String} (h : token ∈ ["a", "b"]) :
    sampleEnv.loads (Json.dumps Json.constants (granted token)) = some (granted token) := by
  have hne : Json.dumps Json.constants (granted "a") ≠ Json.dumps Json.constants (granted "b") := by
    decide
  rcases List.mem_pair.mp h with rfl | rfl
  · simp [sampleEnv]
  · simp [sampleEnv, hne]

theorem logins_alike : Alike sampleEnv (containsSensitive sampleEnv) (login "a") (login "b") := by
  have hsensitive : containsSensitive sampleEnv "accessToken" = true := by decide +kernel
  refine ⟨rfl, rfl, trivial, .inl rfl, rfl, rfl, .inr ⟨_, _, granted "a", granted "b",
    decode_toUTF8 sampleEnv _, decode_toUTF8 sampleEnv _, loads_granted (by simp),
    loads_granted (by simp), rfl, fun hvisible => ?_, trivial⟩⟩
  cases hvisible.symm.trans hsensitive

/-- Two logins. -/
theorem indistinguishable_iff_logins : Indistinguishable sampleEnv (login "a") (login "b") ↔
    Masked sampleEnv (login "a") (login "b") := indistinguishable_iff logins_alike

/-- **The token that a login returns is logged.** -/
theorem not_indistinguishable : ¬ ∀ (env : LogEnv (Option Bool)) (x x' : Request × Response),
    Alike env (containsSensitive env) x x' → Indistinguishable env x x' := by
  intro h
  have hlog := h sampleEnv (login "a") (login "b") logins_alike 0 0
  unfold routeHandler at hlog
  rw [List.map_append, List.map_append, untimed_requests, untimed_requests] at hlog
  have hresponses := (List.append_inj hlog logins_alike.requests_length).2
  have htext : decode sampleEnv (Json.dumps Json.constants (granted "a")).toUTF8 =
      decode sampleEnv (Json.dumps Json.constants (granted "b")).toUTF8 :=
    logins_alike.responses_eq_iff.mp hresponses
  rw [decode_toUTF8, decode_toUTF8] at htext
  exact absurd (Except.ok.inj htext) (by decide)

end LogRoute

end NewlifeCore.Api
