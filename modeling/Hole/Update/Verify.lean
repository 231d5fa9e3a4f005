import Hole.Plugin.ExRay
import Mathlib.Data.List.DropRight

/-!
# The offline check of a release payload

`crates/common/src/verify.rs`, which the application and the bridge share: the signature of the
`SHA256SUMS` manifest, then the payload's digest against the first entry of the manifest that has
the payload's name. What `minisign_verify` and `sha2` do is a parameter (`Crypto`).

A manifest as `sha256sum` writes it (`manifest`) is read back entry by entry, so a payload passes
over it if and only if its digest is the recorded one (`verifyPayloadOffline_manifest`).
-/

namespace Hole.Update

open Text

/-- What the crates `minisign_verify` and `sha2` do. -/
structure Crypto (κ σ : Type) where
  publicKeyFromBase64 : List Char → Except String κ
  signatureDecode : List Char → Except String σ
  /-- `PublicKey::verify`. -/
  verify : κ → List UInt8 → σ → Except String Unit
  /-- The digest of what a `Sha256` was fed. -/
  sha256 : List UInt8 → List UInt8

/-- `VerifyError`; an I/O error is its text. -/
inductive VerifyError
  | signatureInvalid (reason : String)
  | hashMismatch (expected actual : List Char)
  | assetNotInManifest (name : List Char)
  | io (e : String)

/-- The text of an error. -/
def VerifyError.display : VerifyError → String
  | .signatureInvalid reason => "signature verification failed: " ++ reason
  | .hashMismatch expected actual =>
    "SHA-256 hash mismatch: expected " ++ String.ofList expected ++ ", got " ++ String.ofList actual
  | .assetNotInManifest name => "asset " ++ String.ofList name ++ " not found in SHA256SUMS"
  | .io e => "I/O error: " ++ e

/-- `MINISIGN_PUBLIC_KEY`. -/
def minisignPublicKey : List Char :=
  "RWR/A9sHYSwUIYkFXgNc9NcHSP+aoWCHusziW4Kwl3vsbApsqy4Wte1Z".toList

section Parts

variable {κ σ : Type} (crypto : Crypto κ σ)

/-- `verify_minisig_data`. -/
def verifyMinisigData (data : List UInt8) (signatureText publicKey : List Char) :
    Except VerifyError Unit :=
  match crypto.publicKeyFromBase64 publicKey with
  | .error e => .error (.signatureInvalid ("invalid public key: " ++ e))
  | .ok pk =>
    match crypto.signatureDecode signatureText with
    | .error e => .error (.signatureInvalid ("invalid signature file: " ++ e))
    | .ok sig => (crypto.verify pk data sig).mapError .signatureInvalid

/-- `split_whitespace`. -/
def splitWhitespace (s : List Char) : List (List Char) :=
  (s.splitOnP Plugin.isWhiteSpace).filter (· ≠ [])

/-- `u8::is_ascii_hexdigit`. -/
def isAsciiHexdigit (b : UInt8) : Bool :=
  (48 ≤ b && b ≤ 57) || (65 ≤ b && b ≤ 70) || (97 ≤ b && b ≤ 102)

/-- The hash on a line of the manifest that is about `assetName`. -/
def hashOnLine (assetName line : List Char) : Option (List Char) :=
  match splitWhitespace (line.rdropWhile (· == '\r')) with
  | hash :: name :: _ =>
    if name = assetName ∧ (utf8 hash).length = 64 ∧ (utf8 hash).all isAsciiHexdigit then some hash
    else none
  | _ => none

/-- `find_hash_in_sha256sums`. -/
def findHashInSha256sums (content assetName : List Char) : Except VerifyError (List Char) :=
  match (strLines content).findSome? (hashOnLine assetName) with
  | some hash => .ok hash
  | none => .error (.assetNotInManifest assetName)

/-- `hex_encode`. -/
def hexEncode (bytes : List UInt8) : List Char :=
  bytes.flatMap fun b ↦ [Nat.digitChar (b.toNat / 16), Nat.digitChar (b.toNat % 16)]

/-- `verify_sha256_hash`, of a file whose digest is known. -/
def verifySha256Hash (digest : List UInt8) (expectedHex : List Char) : Except VerifyError Unit :=
  if hexEncode digest ≠ toAsciiLowercase expectedHex then
    .error (.hashMismatch expectedHex (hexEncode digest))
  else .ok ()

/-- `verify_payload_offline_with_key`, of a payload that is read without an error. -/
def verifyPayloadOfflineWithKey (payload : List UInt8)
    (assetName sha256sums sha256sumsMinisig publicKey : List Char) : Except VerifyError Unit := do
  verifyMinisigData crypto (utf8 sha256sums) sha256sumsMinisig publicKey
  let expected ← findHashInSha256sums sha256sums assetName
  verifySha256Hash (crypto.sha256 payload) expected

/-- `verify_payload_offline`. -/
def verifyPayloadOffline (payload : List UInt8)
    (assetName sha256sums sha256sumsMinisig : List Char) : Except VerifyError Unit :=
  verifyPayloadOfflineWithKey crypto payload assetName sha256sums sha256sumsMinisig
    minisignPublicKey

end Parts

/-! ### Digests as text -/

theorem digitChar_facts : ∀ n < 16, (Nat.digitChar n).toNat < 0x80 ∧
    isAsciiHexdigit (UInt8.ofNat (Nat.digitChar n).toNat) = true ∧
    Plugin.isWhiteSpace (Nat.digitChar n) = false ∧ (Nat.digitChar n).isUpper = false := by
  decide

theorem digitChar_injective : ∀ m < 16, ∀ n < 16, Nat.digitChar m = Nat.digitChar n → m = n := by
  decide

/-- The digits of a digest. -/
theorem exists_of_mem_hexEncode {c : Char} {bytes : List UInt8} (hc : c ∈ hexEncode bytes) :
    ∃ n < 16, c = Nat.digitChar n := by
  obtain ⟨b, -, hb⟩ := List.mem_flatMap.1 hc
  have hlt : b.toNat < 256 := b.toNat_lt
  rcases List.mem_pair.1 hb with rfl | rfl
  · exact ⟨_, by omega, rfl⟩
  · exact ⟨_, Nat.mod_lt _ (by omega), rfl⟩

theorem utf8_of_ascii {s : List Char} (h : ∀ c ∈ s, c.toNat < 0x80) :
    utf8 s = s.map fun c ↦ UInt8.ofNat c.toNat := by
  induction s with
  | nil => rfl
  | cons c s ih =>
    rw [utf8_cons, utf8EncodeChar_ascii (h c List.mem_cons_self),
      ih fun d hd ↦ h d (List.mem_cons_of_mem c hd)]
    rfl

theorem utf8_hexEncode (bytes : List UInt8) :
    utf8 (hexEncode bytes) = (hexEncode bytes).map fun c ↦ UInt8.ofNat c.toNat := by
  refine utf8_of_ascii fun c hc ↦ ?_
  obtain ⟨n, hn, rfl⟩ := exists_of_mem_hexEncode hc
  exact (digitChar_facts n hn).1

theorem length_hexEncode (bytes : List UInt8) : (hexEncode bytes).length = 2 * bytes.length := by
  induction bytes with
  | nil => rfl
  | cons b bytes ih =>
    show ((hexEncode bytes).length + 1) + 1 = 2 * (bytes.length + 1)
    omega

theorem toAsciiLowercase_hexEncode (bytes : List UInt8) :
    toAsciiLowercase (hexEncode bytes) = hexEncode bytes := by
  rw [toAsciiLowercase]
  refine (List.map_congr_left fun c hc ↦ ?_).trans (List.map_id _)
  obtain ⟨n, hn, rfl⟩ := exists_of_mem_hexEncode hc
  rw [(digitChar_facts n hn).2.2.2]
  rfl

theorem hexEncode_injective : Function.Injective hexEncode := by
  intro bytes
  induction bytes with
  | nil =>
    rintro (- | ⟨b, bytes⟩) h
    · rfl
    · cases h
  | cons b bytes ih =>
    rintro (- | ⟨d, others⟩) h
    · cases h
    · have hb : b.toNat < 256 := b.toNat_lt
      have hd : d.toNat < 256 := d.toNat_lt
      obtain ⟨hhi, h⟩ := List.cons.inj h
      obtain ⟨hlo, h⟩ := List.cons.inj h
      have hhi := digitChar_injective _ (by omega) _ (by omega) hhi
      have hlo := digitChar_injective _ (Nat.mod_lt _ (by omega)) _ (Nat.mod_lt _ (by omega)) hlo
      have hbyte : b = d := UInt8.toNat_inj.1 (by omega)
      rw [hbyte, ih h]

/-! ### Manifests -/

/-- An entry of a manifest. -/
structure Entry where
  digest : List UInt8
  name : List Char
  full : digest.length = 32
  named : name ≠ []
  word : ∀ c ∈ name, Plugin.isWhiteSpace c = false

/-- The line that `sha256sum` writes. -/
def Entry.line (e : Entry) : List Char := hexEncode e.digest ++ ' ' :: ' ' :: e.name

/-- The manifest that `sha256sum` writes. -/
def manifest (es : List Entry) : List Char := es.flatMap fun e ↦ e.line ++ ['\n']

/-- The first entry with a name. -/
def entryOf (es : List Entry) (name : List Char) : Option Entry := es.find? (·.name = name)

theorem splitWhitespace_pair {a b : List Char} (ha : a ≠ []) (hb : b ≠ [])
    (hwa : ∀ c ∈ a, Plugin.isWhiteSpace c = false)
    (hwb : ∀ c ∈ b, Plugin.isWhiteSpace c = false) :
    splitWhitespace (a ++ ' ' :: ' ' :: b) = [a, b] := by
  have hblank : Plugin.isWhiteSpace ' ' = true := rfl
  have hrest : (' ' :: b).splitOnP Plugin.isWhiteSpace = [[], b] :=
    (List.splitOnP_append_cons [] b hblank).trans (by rw [List.splitOnP_eq_singleton hwb]; rfl)
  rw [splitWhitespace, List.splitOnP_append_cons _ _ hblank, List.splitOnP_eq_singleton hwa, hrest]
  simp [ha, hb]

theorem Entry.unbroken (e : Entry) {c : Char} (hc : Plugin.isWhiteSpace c = true)
    (hne : c ≠ ' ') : c ∉ e.line := by
  intro hmem
  rcases List.mem_append.1 hmem with h | h
  · obtain ⟨n, hn, rfl⟩ := exists_of_mem_hexEncode h
    rw [(digitChar_facts n hn).2.2.1] at hc
    cases hc
  · rcases List.mem_cons.1 h with rfl | h
    · exact hne rfl
    · rcases List.mem_cons.1 h with rfl | h
      · exact hne rfl
      · rw [e.word c h] at hc
        cases hc

/-- A line is about the file it names, and has its digest. -/
theorem hashOnLine_line (name : List Char) (e : Entry) :
    hashOnLine name e.line = if e.name = name then some (hexEncode e.digest) else none := by
  have hkept : e.line.rdropWhile (· == '\r') = e.line := by
    refine List.rdropWhile_eq_self_iff.2 fun hne hlast ↦ ?_
    have hmem := List.getLast_mem hne
    rw [beq_iff_eq.1 hlast] at hmem
    exact e.unbroken rfl (by decide) hmem
  have hlength : (hexEncode e.digest).length = 64 := by rw [length_hexEncode, e.full]
  have hdigest : hexEncode e.digest ≠ [] := fun h ↦ by rw [h] at hlength; cases hlength
  have hblank : ∀ c ∈ hexEncode e.digest, Plugin.isWhiteSpace c = false := by
    intro c hc
    obtain ⟨n, hn, rfl⟩ := exists_of_mem_hexEncode hc
    exact (digitChar_facts n hn).2.2.1
  have hutf8 : (utf8 (hexEncode e.digest)).length = 64 ∧
      (utf8 (hexEncode e.digest)).all isAsciiHexdigit = true := by
    rw [utf8_hexEncode, List.length_map, List.all_map]
    refine ⟨hlength, List.all_eq_true.2 fun c hc ↦ ?_⟩
    obtain ⟨n, hn, rfl⟩ := exists_of_mem_hexEncode hc
    exact (digitChar_facts n hn).2.1
  rw [hashOnLine, hkept, Entry.line, splitWhitespace_pair hdigest e.named hblank e.word]
  by_cases hname : e.name = name
  · rw [if_pos hname]
    exact if_pos ⟨hname, hutf8⟩
  · rw [if_neg hname]
    exact if_neg fun h ↦ hname h.1

theorem strLines_manifest (es : List Entry) : strLines (manifest es) = es.map Entry.line := by
  induction es with
  | nil => rfl
  | cons e es ih =>
    have hsplit : manifest (e :: es) = e.line ++ '\n' :: manifest es := by
      rw [manifest, List.flatMap_cons, List.append_assoc]
      rfl
    rw [hsplit, strLines_append (e.unbroken rfl (by decide)) (e.unbroken rfl (by decide)), ih]
    rfl

/-- **A manifest is read back**: a file has the digest of the first entry with its name. -/
theorem findHashInSha256sums_manifest (es : List Entry) (name : List Char) :
    findHashInSha256sums (manifest es) name =
      ((entryOf es name).map fun e ↦ hexEncode e.digest).elim
        (.error (.assetNotInManifest name)) .ok := by
  have hfind : (es.map Entry.line).findSome? (hashOnLine name) =
      (entryOf es name).map fun e ↦ hexEncode e.digest := by
    induction es with
    | nil => rfl
    | cons e es ih =>
      rw [List.map_cons, List.findSome?_cons, hashOnLine_line, entryOf, List.find?_cons]
      by_cases hname : e.name = name
      · rw [if_pos hname, decide_eq_true hname]
        rfl
      · rw [if_neg hname, decide_eq_false hname]
        exact ih
  rw [findHashInSha256sums, strLines_manifest, hfind]
  cases entryOf es name <;> rfl

theorem verifySha256Hash_eq_ok {digest : List UInt8} {expectedHex : List Char} :
    verifySha256Hash digest expectedHex = .ok () ↔
      hexEncode digest = toAsciiLowercase expectedHex := by
  rw [verifySha256Hash]
  split
  · next hne => exact iff_of_false nofun hne
  · next heq => exact iff_of_true rfl (not_not.1 heq)

/-- **A payload passes over a manifest** if and only if the signature of the manifest does, and the
payload has the digest of the first entry with its name. -/
theorem verifyPayloadOffline_manifest {κ σ : Type} (crypto : Crypto κ σ) (payload : List UInt8)
    (name sig : List Char) (es : List Entry) :
    verifyPayloadOffline crypto payload name (manifest es) sig = .ok () ↔
      verifyMinisigData crypto (utf8 (manifest es)) sig minisignPublicKey = .ok () ∧
        ∃ e, entryOf es name = some e ∧ crypto.sha256 payload = e.digest := by
  rw [verifyPayloadOffline, verifyPayloadOfflineWithKey]
  rcases verifyMinisigData crypto (utf8 (manifest es)) sig minisignPublicKey with e | -
  · exact iff_of_false nofun (by rintro ⟨⟨⟩, -⟩)
  · show (findHashInSha256sums (manifest es) name >>=
      verifySha256Hash (crypto.sha256 payload)) = .ok () ↔ _
    rw [findHashInSha256sums_manifest]
    rcases entryOf es name with - | e
    · exact iff_of_false nofun (by rintro ⟨-, e, ⟨⟩, -⟩)
    · show verifySha256Hash (crypto.sha256 payload) (hexEncode e.digest) = .ok () ↔ _
      rw [verifySha256Hash_eq_ok, toAsciiLowercase_hexEncode, hexEncode_injective.eq_iff]
      constructor
      · exact fun heq ↦ ⟨rfl, e, rfl, heq⟩
      · rintro ⟨-, e', he, heq⟩
        rw [heq, Option.some.inj he]

/-- The digest of no bytes. -/
def emptyDigest : List UInt8 :=
  [0xe3, 0xb0, 0xc4, 0x42, 0x98, 0xfc, 0x1c, 0x14, 0x9a, 0xfb, 0xf4, 0xc8, 0x99, 0x6f, 0xb9, 0x24,
    0x27, 0xae, 0x41, 0xe4, 0x64, 0x9b, 0x93, 0x4c, 0xa4, 0x95, 0x99, 0x1b, 0x78, 0x52, 0xb8, 0x55]

/-- The crates, as they are on an empty payload under a good signature. -/
def emptyCrypto : Crypto Unit Unit :=
  ⟨fun _ ↦ .ok (), fun _ ↦ .ok (), fun _ _ _ ↦ .ok (), fun _ ↦ emptyDigest⟩

/-- A release of two files. -/
def release : List Entry :=
  [⟨emptyDigest, "hole.msi".toList, rfl, by decide, forall_of_all (by decide)⟩,
    ⟨emptyDigest.reverse, "hole.dmg".toList, rfl, by decide, forall_of_all (by decide)⟩]

/-- An empty payload passes as the one, and not as the other. -/
theorem verifyPayloadOffline_manifest_empty :
    verifyPayloadOffline emptyCrypto [] "hole.msi".toList (manifest release) [] = .ok () ∧
      verifyPayloadOffline emptyCrypto [] "hole.dmg".toList (manifest release) [] ≠ .ok () := by
  refine ⟨(verifyPayloadOffline_manifest ..).2 ⟨rfl, _, rfl, rfl⟩, fun hok ↦ ?_⟩
  obtain ⟨-, e, he, hdigest⟩ := (verifyPayloadOffline_manifest ..).1 hok
  obtain rfl : release[1] = e := Option.some.inj he
  cases hdigest

end Hole.Update
