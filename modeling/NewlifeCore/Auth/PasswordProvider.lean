import NewlifeCore.Base64

/-!
# Stored password hashes

A hash is one text: the name of the algorithm, then the base64 of a version, the iteration count,
the salt and the derived key.  Who verifies takes count and salt from the text, so that a hash
outlives a change of the count.  The key derivation is a parameter; of it we need the length of its
keys only.

The round trip goes from the outside in.  Cutting a stored text gives the base64 after the name
(`partition_algorithm`), which is read back as the payload it was written from (`payload_read`, by
the round trip of `Base64`); slicing the payload at its fixed offsets gives count, salt and key
(§2).  `verifyToken_written` is then the verification of a written payload: a comparison of the key
in the text with the one that is derived from the attempt, under the count and salt of the text and
not of the verifier.
-/

namespace NewlifeCore.Auth

/-- `PBKDF2HMAC(SHA512, length, salt, iterations).derive(material)`; none is an exception. -/
abbrev Kdf :=
  (length : Nat) → (salt : Bytes) → (iterations : Nat) → (material : Bytes) → Option Bytes

/-- A derived key is as long as it was asked to be. -/
def Kdf.KeepsLength (kdf : Kdf) : Prop :=
  ∀ ⦃length salt iterations material key⦄, kdf length salt iterations material = some key →
    key.length = length

/-- What `__init__` sets. -/
structure PasswordProvider where
  pbkdf2Iterations : Nat := 300000
  saltNumBytes : Nat := 128
  formatVersion : Nat := 1
  fixedPayloadTotalBytes : Nat := 373

namespace PasswordProvider

variable (provider : PasswordProvider) (kdf : Kdf)

def fixedDerivedKeyLength : Nat :=
  provider.fixedPayloadTotalBytes - (1 + 4 + provider.saltNumBytes)

/-- `pbkdf2_sha256$`. -/
def algorithm : PyStr := PyStr.ofString "pbkdf2_sha256$"

/-- The derivation from the UTF-8 of a text; none is a `UnicodeEncodeError` too. -/
def derive (length : Nat) (salt : Bytes) (iterations : Nat) (password : PyStr) : Option Bytes :=
  password.encode.bind (kdf length salt iterations)

def deriveKey (password : PyStr) (saltBytes : Bytes) : Option Bytes :=
  derive kdf provider.fixedDerivedKeyLength saltBytes provider.pbkdf2Iterations password

/-- The version, the iteration count, the salt and the key; none is an `OverflowError`. -/
def buildPayload (saltBytes derivedKey : Bytes) : Option Bytes :=
  if provider.formatVersion < 256 ^ 1 ∧ provider.pbkdf2Iterations < 256 ^ 4 then
    some (Bytes.ofNat 1 provider.formatVersion ++ Bytes.ofNat 4 provider.pbkdf2Iterations ++
      saltBytes ++ derivedKey)
  else none

/-- `hash_password`, with the salt that it draws. -/
def hashPassword (password : PyStr) (saltBytes : Bytes) : Option PyStr := do
  let derivedKey ← provider.deriveKey kdf password saltBytes
  let payload ← provider.buildPayload saltBytes derivedKey
  some (algorithm ++ Base64.urlsafeEncode payload)

/-- The body of `verify_password`. -/
def verifyToken (password passwordHash : PyStr) : Option Bool :=
  if !algorithm.isPrefixOf passwordHash then some false
  else do
    let token := (passwordHash.partition (PyStr.ofChar '$')).2
    let payload ← (token ++ Base64.padding token.length).encode.bind Base64.urlsafeDecode
    if payload.length ≠ provider.fixedPayloadTotalBytes then some false
    else if (payload.headD 0).toNat ≠ provider.formatVersion then some false
    else
      let iterations := Bytes.toNat ((payload.drop 1).take 4)
      let saltBytes := (payload.drop 5).take provider.saltNumBytes
      let expectedKey := payload.drop (5 + provider.saltNumBytes)
      let derivedKey ← derive kdf expectedKey.length saltBytes iterations password
      some (decide (derivedKey = expectedKey))

/-- `verify_password`: an exception is a refusal. -/
def verifyPassword (password passwordHash : PyStr) : Bool :=
  (provider.verifyToken kdf password passwordHash).getD false

/-! ## 1. Cutting a stored text -/

/-- The text after the algorithm's name. -/
theorem partition_algorithm (token : PyStr) :
    ((algorithm ++ token).partition (PyStr.ofChar '$')).2 = token := by
  have hname : algorithm = PyStr.ofString "pbkdf2_sha256" ++ [PyStr.ofChar '$'] := by decide
  have hclean : ∀ c ∈ PyStr.ofString "pbkdf2_sha256", decide (c ≠ PyStr.ofChar '$') = true := by
    decide
  rw [hname, List.append_assoc, PyStr.partition, List.dropWhile_append_of_pos hclean]
  simp

theorem isPrefixOf_algorithm (token : PyStr) : algorithm.isPrefixOf (algorithm ++ token) = true :=
  List.isPrefixOf_iff_prefix.mpr (List.prefix_append _ _)

/-- A token is read back as the payload that it was written from. -/
theorem payload_read (payload : Bytes) :
    (Base64.urlsafeEncode payload ++
      Base64.padding (Base64.urlsafeEncode payload).length).encode.bind Base64.urlsafeDecode =
        some payload := by
  have hencode := PyStr.encode_ascii (Base64.padded_ascii payload)
  rw [Base64.padded] at hencode
  rw [hencode]
  exact Base64.urlsafeDecode_padded payload

/-! ## 2. The parts of a payload -/

/-- A payload of version 1. -/
def written (n : Nat) (salt key : Bytes) : Bytes := [1] ++ Bytes.ofNat 4 n ++ salt ++ key

section Parts

variable {n : Nat} {salt key : Bytes}

theorem length_written : (written n salt key).length = 5 + salt.length + key.length := by
  simp only [written, List.length_append, Bytes.length_ofNat, List.length_singleton]

theorem written_count : ((written n salt key).drop 1).take 4 = Bytes.ofNat 4 n := by
  have hlength : (Bytes.ofNat 4 n).length = 4 := Bytes.length_ofNat 4 n
  rw [written, List.append_assoc, List.append_assoc, List.drop_left' (by simp),
    List.take_left' hlength]

theorem drop_written : (written n salt key).drop 5 = salt ++ key := by
  have hlength : ([1] ++ Bytes.ofNat 4 n).length = 5 := by simp
  rw [written, List.append_assoc, List.drop_left' hlength]

theorem written_salt (h : salt.length = 128) : ((written n salt key).drop 5).take 128 = salt := by
  rw [drop_written, List.take_left' h]

theorem written_key (h : salt.length = 128) : (written n salt key).drop (5 + 128) = key := by
  rw [← List.drop_drop, drop_written, List.drop_left' h]

end Parts

/-! ## 3. Who verifies what was hashed -/

variable {provider kdf} {password attempt : PyStr} {salt key : Bytes} {n m : Nat}

/-- What a hash is made of. -/
theorem hashPassword_cases {stored : PyStr}
    (h : hashPassword { pbkdf2Iterations := n } kdf password salt = some stored) :
    ∃ key, derive kdf 240 salt n password = some key ∧ n < 256 ^ 4 ∧
      stored = algorithm ++ Base64.urlsafeEncode (written n salt key) := by
  obtain ⟨key, hkey, h⟩ := Option.bind_eq_some_iff.mp h
  obtain ⟨payload, hpayload, h⟩ := Option.bind_eq_some_iff.mp h
  rw [buildPayload] at hpayload
  split at hpayload
  case isFalse => cases hpayload
  case isTrue hbound =>
    have hversion : Bytes.ofNat 1 1 = [1] := by decide
    have hlength : fixedDerivedKeyLength { pbkdf2Iterations := n } = 240 := by
      simp only [fixedDerivedKeyLength]
    rw [deriveKey, hlength] at hkey
    refine ⟨key, hkey, hbound.2, ?_⟩
    rw [hversion] at hpayload
    rw [written, Option.some.inj hpayload]
    exact (Option.some.inj h).symm

/-- A text is verified with the count and the salt that it names. -/
theorem verifyToken_written (hn : n < 256 ^ 4) (hsalt : salt.length = 128)
    (hkey : key.length = 240) :
    verifyToken { pbkdf2Iterations := m } kdf attempt
        (algorithm ++ Base64.urlsafeEncode (written n salt key)) =
      (derive kdf 240 salt n attempt).map fun derived => decide (derived = key) := by
  have hlength : (written n salt key).length = 373 := by rw [length_written, hsalt, hkey]
  have hversion : ((written n salt key).headD 0).toNat = 1 := rfl
  rw [verifyToken, isPrefixOf_algorithm, partition_algorithm]
  simp only [payload_read, Option.bind_some, bind, hlength, hversion, written_count,
    written_salt hsalt, written_key hsalt, hkey, Bytes.toNat_ofNat_of_lt hn]
  cases derive kdf 240 salt n attempt <;> rfl

/-- **A stored hash** has the 512 characters that its column takes, and verifies those attempts that
the key derivation takes for the password, whatever the count is that the verifier hashes with. -/
theorem verifyPassword_hashPassword (hkdf : kdf.KeepsLength) {stored : PyStr}
    (hsalt : salt.length = 128)
    (h : hashPassword { pbkdf2Iterations := n } kdf password salt = some stored) :
    stored.length = 512 ∧ stored.IsAscii ∧
      ∀ m attempt, verifyPassword { pbkdf2Iterations := m } kdf attempt stored = true ↔
        derive kdf 240 salt n attempt = derive kdf 240 salt n password := by
  obtain ⟨key, hkey, hn, rfl⟩ := hashPassword_cases h
  have hlength : key.length = 240 := by
    obtain ⟨material, -, hderived⟩ := Option.bind_eq_some_iff.mp hkey
    exact hkdf hderived
  refine ⟨?_, PyStr.isAscii_append (by decide) (Base64.urlsafeEncode_ascii _), fun m attempt => ?_⟩
  · rw [List.length_append, Base64.length_urlsafeEncode, length_written, hsalt, hlength]
    rfl
  · rw [verifyPassword, verifyToken_written hn hsalt hlength, hkey]
    cases derive kdf 240 salt n attempt with
    | none => simp
    | some derived => simp

/-! ### 3.1 An older hash -/

/-- A stand-in whose keys begin with the text that they are derived from. -/
def sampleKdf : Kdf := fun length salt iterations material =>
  some ((material ++ salt ++ List.replicate length (UInt8.ofNat iterations)).take length)

theorem sampleKdf_keepsLength : sampleKdf.KeepsLength := by
  intro length salt iterations material key h
  cases h
  rw [List.length_take, List.length_append, List.length_replicate]
  omega

def samplePassword : PyStr := PyStr.ofString "Sunday-9am!"

def sampleSalt : Bytes := List.replicate 128 7

/-- Hashed with half the count that the verifier hashes with. -/
theorem verifyPassword_hashPassword_older : ∃ stored,
    hashPassword { pbkdf2Iterations := 150000 } sampleKdf samplePassword sampleSalt = some stored ∧
      stored.length = 512 ∧ stored.IsAscii ∧
      verifyPassword {} sampleKdf samplePassword stored = true ∧
      verifyPassword {} sampleKdf (PyStr.ofString "Sunday-10am!") stored = false := by
  have hhashed : (hashPassword { pbkdf2Iterations := 150000 } sampleKdf samplePassword
      sampleSalt).isSome = true := by decide +kernel
  obtain ⟨stored, hstored⟩ := Option.isSome_iff_exists.mp hhashed
  obtain ⟨hlength, hascii, hverify⟩ :=
    verifyPassword_hashPassword sampleKdf_keepsLength List.length_replicate hstored
  have hother : derive sampleKdf 240 sampleSalt 150000 (PyStr.ofString "Sunday-10am!") ≠
      derive sampleKdf 240 sampleSalt 150000 samplePassword := by decide +kernel
  exact ⟨stored, hstored, hlength, hascii, (hverify 300000 samplePassword).mpr rfl,
    Bool.eq_false_iff.mpr fun h => hother ((hverify 300000 _).mp h)⟩

end PasswordProvider

end NewlifeCore.Auth
