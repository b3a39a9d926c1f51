import Himadri.Admin.Tables
import Himadri.Core.Base64
import Himadri.Core.Text
import Himadri.Core.Utf8

/-!
# Encryption at rest of the keys of the endpoints

`crypto.rs`: a column `api_key` holds plaintext and ciphertext side by side. What `encrypt` writes
begins with `enc:v1:`, and `decrypt` returns any other value unchanged, so that rows from before
encryption stay readable. AES-256-GCM is an argument, given by what it promises (`Aes256Gcm`).

Of a column written under one cipher and read under another, `restored_iff` says when the reader
gets what the column promises: its plaintext, or nothing under a different key.
-/

namespace Himadri

/-- AES-256-GCM under keys of a type `κ`: it decrypts what it encrypted under the same key and
nonce, and rejects everything else. -/
structure Aes256Gcm (κ : Type) where
  encrypt : κ → List UInt8 → List UInt8 → List UInt8
  decrypt : κ → List UInt8 → List UInt8 → Option (List UInt8)
  decrypt_eq_some : ∀ {k nonce c p}, decrypt k nonce c = some p ↔ encrypt k nonce p = c
  key_eq : ∀ {k k' nonce p p'}, encrypt k nonce p = encrypt k' nonce p' → k = k'
  /-- The tag comes after the plaintext's own length. -/
  length_encrypt : ∀ k nonce p, (encrypt k nonce p).length = p.length + 16

/-- The 12 bytes that `generate_nonce` draws. -/
structure Nonce where
  bytes : List UInt8
  length_eq : bytes.length = 12

/-- `CryptoError`, of those that reading a value ends with. -/
inductive CryptoError
  | invalidBase64
  | decryptFailed
  deriving DecidableEq

variable {κ : Type} (gcm : Aes256Gcm κ)

namespace CipherKey

/-- `PREFIX`. -/
def marker : String := "enc:v1:"

/-- `CipherKey::encrypt`. -/
def encrypt (k : κ) (nonce : Nonce) (plaintext : String) : String :=
  marker ++
    .ofList (Base64.encode (nonce.bytes ++ gcm.encrypt k nonce.bytes (Utf8.bytes plaintext)))

/-- `CipherKey::decrypt`. -/
def decrypt (k : κ) (value : String) : Except CryptoError String :=
  match Text.stripPrefix value marker with
  | none => .ok value
  | some encoded =>
    match Base64.decode encoded.toList with
    | none => .error .invalidBase64
    | some combined =>
      if combined.length < 12 then .error .decryptFailed
      else
        match (gcm.decrypt k (combined.take 12) (combined.drop 12)).bind Utf8.fromUtf8 with
        | none => .error .decryptFailed
        | some plaintext => .ok plaintext

section Laws

variable {gcm} {k k' : κ} {nonce : Nonce} {s t : String}

/-- What was encrypted, decrypted under either key. -/
theorem decrypt_encrypt_eq (k k' : κ) (nonce : Nonce) (s : String) :
    decrypt gcm k' (encrypt gcm k nonce s) =
      match (gcm.decrypt k' nonce.bytes (gcm.encrypt k nonce.bytes (Utf8.bytes s))).bind
        Utf8.fromUtf8 with
      | none => .error .decryptFailed
      | some plaintext => .ok plaintext := by
  have hstrip : Text.stripPrefix (encrypt gcm k nonce s) marker = some _ :=
    Text.stripPrefix_eq_some.2 rfl
  have hlength : ¬(nonce.bytes ++ gcm.encrypt k nonce.bytes (Utf8.bytes s)).length < 12 := by
    rw [List.length_append, nonce.length_eq]
    omega
  simp only [decrypt, hstrip, String.toList_ofList, Base64.decode_encode, if_neg hlength]
  rw [List.take_left' nonce.length_eq, List.drop_left' nonce.length_eq]

theorem decrypt_encrypt (k : κ) (nonce : Nonce) (s : String) :
    decrypt gcm k (encrypt gcm k nonce s) = .ok s := by
  have hplain : gcm.decrypt k nonce.bytes (gcm.encrypt k nonce.bytes (Utf8.bytes s)) =
      some (Utf8.bytes s) := gcm.decrypt_eq_some.2 rfl
  rw [decrypt_encrypt_eq, hplain, Option.bind_some, Utf8.fromUtf8_bytes]

theorem decrypt_encrypt_of_ne (h : k ≠ k') (nonce : Nonce) (s : String) :
    decrypt gcm k' (encrypt gcm k nonce s) = .error .decryptFailed := by
  have hnone : gcm.decrypt k' nonce.bytes (gcm.encrypt k nonce.bytes (Utf8.bytes s)) = none := by
    rw [Option.eq_none_iff_forall_ne_some]
    intro p hp
    exact h (gcm.key_eq (gcm.decrypt_eq_some.1 hp)).symm
  rw [decrypt_encrypt_eq, hnone, Option.bind_none]

/-- Ciphertext is longer than its plaintext. -/
theorem encrypt_ne (k : κ) (nonce : Nonce) (s : String) : encrypt gcm k nonce s ≠ s := by
  intro heq
  have hlength := congrArg (fun t : String ↦ t.toList.length) heq
  have hbase64 := Base64.length_le_encode
    (nonce.bytes ++ gcm.encrypt k nonce.bytes (Utf8.bytes s))
  have hutf8 : s.toList.length ≤ (Utf8.bytes s).length := Utf8.length_le_encode s.toList
  rw [List.length_append, nonce.length_eq, gcm.length_encrypt] at hbase64
  simp only [encrypt, String.toList_append, String.toList_ofList, List.length_append] at hlength
  omega

theorem decrypt_of_not_startsWith (h : Text.startsWith s marker = false) (k : κ) :
    decrypt gcm k s = .ok s := by
  rw [decrypt, Text.stripPrefix, h]
  rfl

/-- A text that looks like ciphertext is not what it decrypts to. -/
theorem decrypt_ne_of_startsWith (h : Text.startsWith s marker) (k : κ) :
    decrypt gcm k s ≠ .ok s := by
  intro hok
  have hstrip : Text.stripPrefix s marker = some (.ofList (s.toList.drop marker.toList.length)) :=
    if_pos h
  simp only [decrypt, hstrip, String.toList_ofList] at hok
  split at hok
  · cases hok
  · next combined hcombined =>
    split at hok
    · cases hok
    · next hlong =>
      split at hok
      · cases hok
      · next p hp =>
        obtain ⟨plain, hplain, hs⟩ := Option.bind_eq_some_iff.1 hp
        rw [Except.ok.injEq] at hok
        have hbase64 := Base64.length_le_of_decode hcombined
        have hgcm := congrArg List.length (gcm.decrypt_eq_some.1 hplain)
        have hutf8 : p.toList.length ≤ (Utf8.bytes p).length := Utf8.length_le_encode p.toList
        rw [Utf8.fromUtf8_eq_some.1 hs, hok] at hutf8
        rw [gcm.length_encrypt, List.length_drop] at hgcm
        rw [List.length_drop] at hbase64
        omega

end Laws

end CipherKey

/-- `encrypt_endpoint_api_key`. -/
def encryptEndpointApiKey (cipher : Option κ) (nonce : Nonce) (apiKey : Option String) :
    Option String :=
  match cipher, apiKey with
  | some k, some plaintext =>
    if plaintext.isEmpty then some plaintext else some (CipherKey.encrypt gcm k nonce plaintext)
  | _, other => other

/-- The key that `decrypt_endpoint` leaves of a column. -/
def decryptApiKey (cipher : Option κ) (apiKey : Option String) : Option String :=
  match cipher, apiKey with
  | some k, some value => (CipherKey.decrypt gcm k value).toOption
  | _, other => other

/-- `decrypt_endpoint`. -/
def decryptEndpoint (cipher : Option κ) (endpoint : ModelEndpoint) : ModelEndpoint :=
  { endpoint with apiKey := decryptApiKey gcm cipher endpoint.apiKey }

/-! ### Written under one cipher, read under another -/

/-- A reader gets the plaintext or nothing, and does get it under the cipher it was written under or
where none was used. -/
def Restores (stored : Option String) (writer reader : Option κ) (read : Option String) : Prop :=
  (read = stored ∨ read = none) ∧ (reader = writer ∨ writer = none → read = stored)

/-- A reader without a cipher finds no ciphertext, and one with a cipher no plaintext that looks
like it. -/
def Legible (stored : Option String) (writer reader : Option κ) : Prop :=
  ∀ s ∈ stored, (reader = none → writer = none ∨ s = "") ∧
    (reader ≠ none → writer = none → Text.startsWith s CipherKey.marker = false)

section Columns

variable {gcm} {nonce : Nonce} {writer reader : Option κ} {k : κ} {s : String}

/-- What decrypts to a text other than itself, or to nothing, is not restored. -/
theorem toOption_eq_some {value : String} :
    (CipherKey.decrypt gcm k value).toOption = some s ↔ CipherKey.decrypt gcm k value = .ok s := by
  rcases CipherKey.decrypt gcm k value with e | t
  · exact ⟨fun h ↦ (by cases h), fun h ↦ (by cases h)⟩
  · rw [Except.ok.injEq]
    exact Option.some_inj

theorem encryptEndpointApiKey_raw (hraw : writer = none ∨ s = "") :
    encryptEndpointApiKey gcm writer nonce (some s) = some s := by
  rcases writer with - | k
  · rfl
  · have hs : s = "" := hraw.resolve_left (Option.some_ne_none k)
    rw [hs]
    rfl

theorem encryptEndpointApiKey_sealed (hs : s ≠ "") :
    encryptEndpointApiKey gcm (some k) nonce (some s) =
      some (CipherKey.encrypt gcm k nonce s) := by
  rw [encryptEndpointApiKey, if_neg]
  rw [String.isEmpty_iff]
  exact hs

theorem legible_some : Legible (some s) writer reader ↔
    (reader = none → writer = none ∨ s = "") ∧
      (reader ≠ none → writer = none → Text.startsWith s CipherKey.marker = false) := by
  constructor
  · exact fun h ↦ h s rfl
  · intro h t ht
    rwa [← Option.mem_some_iff.1 ht]

/-- A plaintext that is stored as it is. -/
theorem restores_raw_iff (hraw : writer = none ∨ s = "") :
    Restores (some s) writer reader (decryptApiKey gcm reader (some s)) ↔
      Legible (some s) writer reader := by
  rcases reader with - | k
  · show Restores (some s) writer none (some s) ↔ _
    exact iff_of_true ⟨.inl rfl, fun _ ↦ rfl⟩
      (legible_some.2 ⟨fun _ ↦ hraw, fun hne ↦ absurd rfl hne⟩)
  · show Restores (some s) writer (some k) (CipherKey.decrypt gcm k s).toOption ↔ _
    rcases hmarked : Text.startsWith s CipherKey.marker with - | -
    · rw [CipherKey.decrypt_of_not_startsWith hmarked]
      exact iff_of_true ⟨.inl rfl, fun _ ↦ rfl⟩
        (legible_some.2 ⟨fun hnone ↦ (by cases hnone), fun _ _ ↦ hmarked⟩)
    · have hs : s ≠ "" := by
        rintro rfl
        cases hmarked
      have hwriter : writer = none := hraw.resolve_right hs
      refine iff_of_false (fun h ↦ ?_) fun h ↦ ?_
      · exact CipherKey.decrypt_ne_of_startsWith hmarked k (toOption_eq_some.1 (h.2 (.inr hwriter)))
      · have hnot := (legible_some.1 h).2 (Option.some_ne_none k) hwriter
        rw [hmarked] at hnot
        cases hnot

/-- A plaintext that is stored encrypted. -/
theorem restores_sealed_iff (hs : s ≠ "") :
    Restores (some s) (some k) reader
        (decryptApiKey gcm reader (some (CipherKey.encrypt gcm k nonce s))) ↔
      Legible (some s) (some k) reader := by
  rcases reader with - | k'
  · refine iff_of_false (fun h ↦ ?_) fun h ↦ ?_
    · rcases h.1 with heq | hnone
      · exact CipherKey.encrypt_ne k nonce s (Option.some.inj heq)
      · cases hnone
    · rcases (legible_some.1 h).1 rfl with hnone | hempty
      · cases hnone
      · exact hs hempty
  · have hlegible : Legible (some s) (some k) (some k') :=
      legible_some.2 ⟨fun hnone ↦ (by cases hnone), fun _ hnone ↦ (by cases hnone)⟩
    refine iff_of_true ?_ hlegible
    show Restores _ _ _ (CipherKey.decrypt gcm k' (CipherKey.encrypt gcm k nonce s)).toOption
    by_cases hk : k = k'
    · rw [hk, CipherKey.decrypt_encrypt]
      exact ⟨.inl rfl, fun _ ↦ rfl⟩
    · rw [CipherKey.decrypt_encrypt_of_ne hk]
      refine ⟨.inr rfl, fun h ↦ ?_⟩
      rcases h with heq | hnone
      · exact absurd (Option.some.inj heq).symm hk
      · cases hnone

variable (gcm nonce writer reader) in
/-- **What a reader gets of a column that a writer left.** -/
theorem restores_iff (stored : Option String) :
    Restores stored writer reader
        (decryptApiKey gcm reader (encryptEndpointApiKey gcm writer nonce stored)) ↔
      Legible stored writer reader := by
  rcases stored with - | s
  · have hcolumn : encryptEndpointApiKey gcm writer nonce none = none := by
      rcases writer with - | k <;> rfl
    have hread : decryptApiKey gcm reader none = none := by
      rcases reader with - | k <;> rfl
    rw [hcolumn, hread]
    exact iff_of_true ⟨.inl rfl, fun _ ↦ rfl⟩ fun _ h ↦ (by cases h)
  · by_cases hraw : writer = none ∨ s = ""
    · rw [encryptEndpointApiKey_raw hraw]
      exact restores_raw_iff hraw
    · rw [not_or] at hraw
      obtain ⟨k, rfl⟩ := Option.ne_none_iff_exists'.1 hraw.1
      rw [encryptEndpointApiKey_sealed hraw.2]
      exact restores_sealed_iff hraw.2

end Columns

end Himadri
