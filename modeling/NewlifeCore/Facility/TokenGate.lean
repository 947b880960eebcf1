import NewlifeCore.CodePoints
import NewlifeCore.Facility.PriorityOverride

/-!
# The review token gate, on any text

A review token is text of the client's own: what comes before its first dot is encoded, signed and
compared with what comes after, and only then decoded.  Here the gate is followed through each of
the exceptions on that way.  Two of them are not turned into a conflict: that of the encoding, which
takes no surrogate, and that of the comparison, which takes ASCII only.
-/

namespace NewlifeCore

/-! ## 1. What the gate calls -/

/-- A value of `json.loads`; nan and the infinities are no number. -/
inductive TokenJson
  | null
  | bool (value : Bool)
  | number (value : Option Rat)
  | str (value : PyStr)
  | arr (items : List TokenJson)
  | obj (fields : List (PyStr × TokenJson))

namespace TokenJson

def get (fields : List (PyStr × TokenJson)) (key : String) : Option TokenJson :=
  (fields.find? fun f => f.1 = PyStr.ofString key).map Prod.snd

/-- `== 1`, which `True` is as well. -/
def isOne : Option TokenJson → Bool
  | some (bool value) => value
  | some (number (some value)) => value = 1
  | _ => false

def isText (value : Option TokenJson) (text : String) : Bool :=
  match value with
  | some (str s) => s = PyStr.ofString text
  | _ => false

end TokenJson

/-- The primitives under the texts: the MAC of bytes under the secret, and the two decoders, whose
errors are `ValueError`s. -/
structure TokenLibrary extends ReviewCrypto where
  hmac : Bytes → Bytes
  b64decode : PyStr → Option Bytes
  loads : Bytes → Option TokenJson

/-- `UnicodeEncodeError`. -/
def unicodeEncodeError : ApiError := ⟨.valueError, "surrogates not allowed", none, []⟩

def nonAsciiError : ApiError :=
  ⟨.typeError, "comparing strings with non-ASCII characters is not supported", none, []⟩

/-- `hmac.compare_digest` on two `str`. -/
def compareDigest (a b : PyStr) : Except ApiError Bool :=
  if a.IsAscii ∧ b.IsAscii then .ok (a = b) else .error nonAsciiError

/-! ## 2. The gate -/

namespace TokenGate

variable (lib : TokenLibrary)

/-- The text before the first dot, and that after it. -/
def parts (token : PyStr) : PyStr × PyStr := token.partition (PyStr.ofChar '.')

/-- The reviewed fingerprints of a payload of this version and context. -/
def payloadFingerprints (payload : TokenJson) (contextDigest : String) :
    Option (List (PyStr × TokenJson)) :=
  match payload with
  | .obj fields =>
    if !TokenJson.isOne (TokenJson.get fields "v") ||
        !TokenJson.isText (TokenJson.get fields "c") contextDigest then none
    else
      match TokenJson.get fields "t" with
      | some (.obj reviewed) => some reviewed
      | _ => none
  | _ => none

/-- What a signed body was issued with. -/
def bodyFingerprints (body : PyStr) (contextDigest : String) : Option (List (PyStr × TokenJson)) :=
  match (lib.b64decode body).bind lib.loads with
  | none => none
  | some payload => payloadFingerprints payload contextDigest

/-- `_reviewed_fingerprints`. -/
def reviewedFingerprints (token : PyStr) (contextDigest : String) :
    Except ApiError (Option (List (PyStr × TokenJson))) :=
  let (body, signature) := parts token
  if body = [] || signature = [] then .ok none
  else
    match body.encode with
    | none => .error unicodeEncodeError
    | some raw =>
      match compareDigest (Base64.urlsafeEncode (lib.hmac raw)) signature with
      | .error e => .error e
      | .ok same => if !same then .ok none else .ok (bodyFingerprints lib body contextDigest)

def reviewRequired : ApiError :=
  conflictError "Priority override impact must be reviewed before confirmation"
    (some .overrideReviewRequired)

def reviewStale : ApiError :=
  conflictError "Priority override impact changed since review; review it again"
    (some .overrideReviewStale)

def requireReviewedOverride (token : Option PyStr) (bookerId : UUID) (ministryId : Option UUID)
    (proposal : List String) (impacts : List OverrideImpact) : Except ApiError Unit :=
  if impacts.isEmpty then .ok ()
  else
    match token with
    | none => .error reviewRequired
    | some token =>
      if token = [] then .error reviewRequired
      else
        match reviewedFingerprints lib token
            (contextDigest lib.toReviewCrypto bookerId ministryId proposal) with
        | .error e => .error e
        | .ok none => .error reviewStale
        | .ok (some reviewed) =>
          if impacts.any fun i => !TokenJson.isText
              (TokenJson.get reviewed (impactKey lib.toReviewCrypto i.bookingId))
              (impactFingerprint lib.toReviewCrypto i) then
            .error reviewStale
          else .ok ()

/-! ## 3. Which texts it settles -/

/-- The signature part is the MAC of the body part. -/
def Signed (token : PyStr) : Prop :=
  ∃ raw, (parts token).1.encode = some raw ∧
    (parts token).2 = Base64.urlsafeEncode (lib.hmac raw)

/-- A part is missing, or the body can be encoded and the signature compared. -/
def Comparable (token : PyStr) : Prop :=
  (parts token).1 = [] ∨ (parts token).2 = [] ∨
    (parts token).1.IsScalar ∧ (parts token).2.IsAscii

/-- **The gate's promise**: it returns for a signed token only, and else asks for a review. -/
structure Settles (token : Option PyStr) (out : Except ApiError Unit) : Prop where
  documented : out = .ok () ∨ out = .error reviewRequired ∨ out = .error reviewStale
  signed : out = .ok () → ∃ text, token = some text ∧ Signed lib text

variable {lib} {token : PyStr} {context : String}

theorem compareDigest_encoded (raw : Bytes) (signature : PyStr) :
    compareDigest (Base64.urlsafeEncode raw) signature =
      if signature.IsAscii then .ok (decide (Base64.urlsafeEncode raw = signature))
      else .error nonAsciiError := by
  unfold compareDigest
  by_cases h : signature.IsAscii
  · rw [if_pos ⟨Base64.urlsafeEncode_ascii raw, h⟩, if_pos h]
  · rw [if_neg fun hboth => h hboth.2, if_neg h]

/-- A comparable token is read, and only a signed one yields fingerprints. -/
theorem reviewedFingerprints_comparable (h : Comparable token) :
    reviewedFingerprints lib token context = .ok none ∨
      Signed lib token ∧ reviewedFingerprints lib token context =
        .ok (bodyFingerprints lib (parts token).1 context) := by
  unfold reviewedFingerprints
  dsimp only
  by_cases hmissing : (parts token).1 = [] ∨ (parts token).2 = []
  · rw [if_pos (by simpa using hmissing)]
    exact .inl rfl
  · rw [if_neg (by simpa using hmissing)]
    obtain ⟨hscalar, hascii⟩ := (or_assoc.mpr h).resolve_left hmissing
    rw [PyStr.encode, if_pos hscalar]
    dsimp only
    rw [compareDigest_encoded, if_pos hascii]
    dsimp only
    split
    · exact .inl rfl
    · rename_i hsame
      refine .inr ⟨⟨_, by rw [PyStr.encode, if_pos hscalar], ?_⟩, rfl⟩
      simpa using Eq.symm (by simpa using hsame)

/-- Any other token raises what the gate does not catch. -/
theorem reviewedFingerprints_raises (lib : TokenLibrary) (h : ¬Comparable token) :
    reviewedFingerprints lib token context = .error unicodeEncodeError ∨
      reviewedFingerprints lib token context = .error nonAsciiError := by
  simp only [Comparable, not_or, not_and] at h
  obtain ⟨hbody, hsignature, hparts⟩ := h
  unfold reviewedFingerprints
  dsimp only
  rw [if_neg (by simp [hbody, hsignature]), PyStr.encode]
  by_cases hscalar : (parts token).1.IsScalar
  · rw [if_pos hscalar]
    dsimp only
    rw [compareDigest_encoded, if_neg (hparts hscalar)]
    exact .inr rfl
  · rw [if_neg hscalar]
    exact .inl rfl

theorem comparable_nil : Comparable [] := .inl rfl

/-- **The gate settles exactly the comparable tokens**: every other one raises a `UnicodeEncodeError`
or a `TypeError`. -/
theorem requireReviewedOverride_settles_iff (lib : TokenLibrary) (token : Option PyStr)
    (bookerId : UUID) (ministryId : Option UUID) (proposal : List String)
    {impacts : List OverrideImpact} (himpacts : impacts ≠ []) :
    Settles lib token (requireReviewedOverride lib token bookerId ministryId proposal impacts) ↔
      ∀ text, token = some text → Comparable text := by
  unfold requireReviewedOverride
  rw [if_neg (by simpa using himpacts)]
  cases token with
  | none => exact iff_of_true ⟨.inr (.inl rfl), nofun⟩ nofun
  | some token =>
    dsimp only
    by_cases hempty : token = []
    · rw [if_pos hempty]
      refine iff_of_true ⟨.inr (.inl rfl), nofun⟩ fun text htext => ?_
      rw [← Option.some_inj.mp htext, hempty]
      exact comparable_nil
    rw [if_neg hempty]
    by_cases hcomparable : Comparable token
    · refine iff_of_true ?_ fun text htext => Option.some_inj.mp htext ▸ hcomparable
      rcases reviewedFingerprints_comparable hcomparable with hnone | ⟨hsigned, hread⟩
      · rw [hnone]
        exact ⟨.inr (.inr rfl), nofun⟩
      · rw [hread]
        cases bodyFingerprints lib (parts token).1 _ with
        | none => exact ⟨.inr (.inr rfl), nofun⟩
        | some reviewed =>
          dsimp only
          split
          · exact ⟨.inr (.inr rfl), nofun⟩
          · exact ⟨.inl rfl, fun _ => ⟨token, rfl, hsigned⟩⟩
    · refine iff_of_false (fun hsettles => ?_) fun hall => hcomparable (hall token rfl)
      rcases reviewedFingerprints_raises lib hcomparable with hraises | hraises
      all_goals
        have hdocumented := hsettles.documented
        rw [hraises] at hdocumented
        rcases hdocumented with hout | hout | hout <;> cases hout

/-! ### 3.1 A token with an accent -/

/-- A library that signs everything alike and decodes nothing. -/
def bareLibrary : TokenLibrary :=
  { digest := id, sign := fun _ => "", encode := fun _ => "", decode := fun _ => none
    hmac := fun _ => [], b64decode := fun _ => none, loads := fun _ => none }

/-- A plain text that is no token is told to review again. -/
theorem requireReviewedOverride_settles_plain :
    [(⟨1, false, 10, 20, []⟩ : OverrideImpact)] ≠ [] ∧
      Settles bareLibrary (some (PyStr.ofString "a.e")) (requireReviewedOverride bareLibrary
        (some (PyStr.ofString "a.e")) 7 none [] [⟨1, false, 10, 20, []⟩]) := by
  refine ⟨by decide, (requireReviewedOverride_settles_iff bareLibrary _ 7 none []
    (by decide)).mpr fun text htext => ?_⟩
  rw [← Option.some_inj.mp htext]
  exact .inr (.inr (by decide))

/-- **A signature with an accent raises a `TypeError`**, whatever it signs. -/
theorem requireReviewedOverride_accent :
    requireReviewedOverride bareLibrary (some (PyStr.ofString "a.é")) 7 none []
        [⟨1, false, 10, 20, []⟩] = .error nonAsciiError ∧
      ¬Settles bareLibrary (some (PyStr.ofString "a.é")) (requireReviewedOverride bareLibrary
        (some (PyStr.ofString "a.é")) 7 none [] [⟨1, false, 10, 20, []⟩]) := by
  have hraises : requireReviewedOverride bareLibrary (some (PyStr.ofString "a.é")) 7 none []
      [⟨1, false, 10, 20, []⟩] = .error nonAsciiError := by decide
  refine ⟨hraises, fun h => ?_⟩
  have hdocumented := h.documented
  rw [hraises] at hdocumented
  revert hdocumented
  decide

end TokenGate

end NewlifeCore
