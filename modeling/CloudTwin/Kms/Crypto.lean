/-
**KMS ciphertexts** (`aws/kms/service.rs`).

A ciphertext is a magic number, the id of the key, a nonce and the body that AES-256-GCM makes of
the plaintext under the key's material, the nonce and the encryption context. The cipher is outside
the repository: what is relied on is that it opens what was sealed under the same key, nonce and
context, and rejects everything else.

* `seal`, `encrypt`, `decrypt`, `reEncrypt`, `generateDataKey` — the operations; a slice out of
  bounds is a panic.
* `GcmLaws` — the cipher and the sealings that were made with it.
* `decrypt_ok` — what a blob is like that is decrypted.
* `ciphertext_bound` — what is issued is decrypted under the key and context of its sealing only, an
  altered blob never, and no blob panics.
-/

import CloudTwin.Kms.Serial
import CloudTwin.Lib.JsonText
import Std.Data.ExtTreeMap.Lemmas

namespace CloudTwin.Kms

open Lib Lib.Text

set_option linter.unusedSectionVars false

abbrev Bytes := List UInt8

/-! ### The layout -/

/-- `CTK\x01`. -/
def magic : Bytes :=
  [67, 84, 75, 1]

def idLen : Nat := 36

def nonceLen : Nat := 12

def headerLen : Nat :=
  magic.length + idLen + nonceLen

def maxEncryptPlaintext : Nat := 4096

/-! ### The cipher -/

/-- AES-256-GCM: of a key, a nonce, associated data and a message or its encryption. -/
structure Gcm where
  encrypt : Bytes → Bytes → Bytes → Bytes → Bytes
  decrypt : Bytes → Bytes → Bytes → Bytes → Option Bytes

structure Sealing where
  material : Bytes
  nonce : Bytes
  aad : Bytes
  plaintext : Bytes

/-- The body that the cipher makes. -/
def Gcm.sealed (gcm : Gcm) (sealing : Sealing) : Bytes :=
  gcm.encrypt sealing.material sealing.nonce sealing.aad sealing.plaintext

/-- **What is relied on about AES-256-GCM**, given the sealings that were made. -/
structure GcmLaws (gcm : Gcm) (made : Sealing → Prop) : Prop where
  /-- A sealing is opened with its own key, nonce and data, and with no others. -/
  opens : ∀ sealing, made sealing → ∀ material nonce aad message,
    gcm.decrypt material nonce aad (gcm.sealed sealing) = some message ↔
      sealing = ⟨material, nonce, aad, message⟩
  /-- What was not sealed is not opened. -/
  rejects : ∀ material nonce aad body message, gcm.decrypt material nonce aad body = some message →
    ∃ sealing, made sealing ∧ body = gcm.sealed sealing
  /-- The body ends in a tag of sixteen bytes. -/
  tagged : ∀ sealing, made sealing → 16 ≤ (gcm.sealed sealing).length

namespace GcmLaws

variable {gcm : Gcm} {made : Sealing → Prop}

theorem opened (laws : GcmLaws gcm made) {material nonce aad body message : Bytes}
    (done : gcm.decrypt material nonce aad body = some message) :
    made ⟨material, nonce, aad, message⟩ ∧ body = gcm.sealed ⟨material, nonce, aad, message⟩ := by
  obtain ⟨sealing, member, rfl⟩ := laws.rejects _ _ _ _ _ done
  have same := (laws.opens sealing member _ _ _ _).mp done
  subst same
  exact ⟨member, rfl⟩

/-- Different sealings have different bodies. -/
theorem injective (laws : GcmLaws gcm made) {sealing other : Sealing} (member : made sealing)
    (memberToo : made other) (same : gcm.sealed sealing = gcm.sealed other) : sealing = other := by
  have done := (laws.opens other memberToo other.material other.nonce other.aad
    other.plaintext).mpr rfl
  rw [← same] at done
  exact (laws.opens sealing member _ _ _ _).mp done

end GcmLaws

/-! ### Encryption contexts -/

/-- `BTreeMap<String, String>`. -/
abbrev EncryptionContext := Std.ExtTreeMap String String compare

/-- Canonical AAD for an encryption context: sorted JSON, empty for no context. -/
def canonicalContext (context : EncryptionContext) : Bytes :=
  if context.isEmpty then []
  else utf8 (String.ofList (JsonText.objectText
    (context.toList.map fun entry => (entry.1.toList, entry.2.toList))))

/-- **Different contexts have different associated data.** -/
theorem canonicalContext_injective : Function.Injective canonicalContext := by
  intro first second same
  have some : ∀ entries, utf8 (String.ofList (JsonText.objectText entries)) ≠ [] := by
    intro entries nothing
    have chars := utf8_injective (nothing.trans (show [] = utf8 "" from rfl))
    have lists := congrArg String.toList chars
    rw [String.toList_ofList] at lists
    cases entries with
    | nil => cases lists
    | cons entry rest => cases lists
  unfold canonicalContext at same
  by_cases empty : first.isEmpty = true
  · by_cases emptyToo : second.isEmpty = true
    · rw [Std.ExtTreeMap.isEmpty_iff.mp empty, Std.ExtTreeMap.isEmpty_iff.mp emptyToo]
    · rw [if_pos empty, if_neg emptyToo] at same
      exact absurd same.symm (some _)
  · by_cases emptyToo : second.isEmpty = true
    · rw [if_neg empty, if_pos emptyToo] at same
      exact absurd same (some _)
    · rw [if_neg empty, if_neg emptyToo] at same
      have texts := congrArg String.toList (utf8_injective same)
      rw [String.toList_ofList, String.toList_ofList] at texts
      have entries := JsonText.objectText_injective texts
      have pairs : Function.Injective fun entry : String × String =>
          (entry.1.toList, entry.2.toList) := by
        intro one other equal
        obtain ⟨names, values⟩ := Prod.mk.inj equal
        exact Prod.ext (String.toList_inj.mp names) (String.toList_inj.mp values)
      exact Std.ExtTreeMap.toList_inj.mp (List.map_injective_iff.mpr pairs entries)

/-! ### Operations -/

/-- A call ends with an error of the service, or it panics. -/
inductive Fault where
  | panic
  | error (error : KmsError)

abbrev Checked := Except Fault

def checked {α : Type} (result : KmsResult α) : Checked α :=
  match result with
  | .ok value => .ok value
  | .error error => .error (.error error)

/-- `&bytes[start..stop]`. -/
def slice (bytes : Bytes) (start stop : Nat) : Checked Bytes :=
  if start ≤ stop ∧ stop ≤ bytes.length then .ok ((bytes.take stop).drop start)
  else .error .panic

/-- `Nonce::from_slice`. -/
def nonceFromSlice (bytes : Bytes) : Checked Bytes :=
  if bytes.length = nonceLen then .ok bytes else .error .panic

/-- `Aes256Gcm::new_from_slice`. -/
def newCipher (material : Bytes) : KmsResult Bytes :=
  if material.length = 32 then .ok material
  else .error (.internal "bad key material: Invalid Length")

/-- The random bytes of a nonce. -/
abbrev Nonce := { bytes : Bytes // bytes.length = nonceLen }

def sealBlob (gcm : Gcm) (key : KmsKey) (plaintext : Bytes) (context : EncryptionContext)
    (nonce : Nonce) : KmsResult Bytes := do
  requireSymmetricCrypto key
  let cipher ← newCipher (key.material.getD [])
  return magic ++ (utf8 key.id ++ (nonce.1 ++
    gcm.encrypt cipher nonce.1 (canonicalContext context) plaintext))

/-- Resolve a key id, key ARN, alias name or alias ARN. -/
def resolve (store : Store) (keyRef : String) : KmsResult KmsKey := do
  match ← parseKeyRef keyRef with
  | .id id => okOr (loadKey store id) (notFoundKey id)
  | .alias name =>
    let row ← okOr (getAlias store name) (notFoundAlias name)
    okOr (loadKey store row.targetKeyId) (notFoundAlias name)

def encrypt (gcm : Gcm) (store : Store) (keyRef : String) (plaintext : Bytes)
    (context : EncryptionContext) (nonce : Nonce) : KmsResult (KmsKey × Bytes) := do
  rejectIf (plaintext.isEmpty ∨ maxEncryptPlaintext < plaintext.length)
    (.validation ("1 validation error detected: Value at 'plaintext' failed to satisfy " ++
      "constraint: Member must have length between 1 and " ++ toString maxEncryptPlaintext))
  let key ← resolve store keyRef
  let blob ← sealBlob gcm key plaintext context nonce
  return (key, blob)

def invalidCiphertext : Fault :=
  .error (.invalidCiphertext "")

/-- When `keyRef` is given it must identify the key that produced the blob. -/
def checkKeyRef (store : Store) (key : KmsKey) (keyRef : Option String) : KmsResult Unit :=
  match keyRef with
  | none => .ok ()
  | some keyRef => do
    let requested ← resolve store keyRef
    rejectIf (requested.id ≠ key.id) (.incorrectKey ("The key ID in the request does not " ++
      "identify a KMS key that can perform this operation."))

/-- Decrypt a blob produced by `encrypt`. -/
def decrypt (gcm : Gcm) (store : Store) (blob : Bytes) (context : EncryptionContext)
    (keyRef : Option String) : Checked (KmsKey × Bytes) := do
  rejectIf (blob.length < headerLen + 16) invalidCiphertext
  let start ← slice blob 0 magic.length
  rejectIf (start ≠ magic) invalidCiphertext
  let idBytes ← slice blob magic.length (magic.length + idLen)
  let id ← okOr (fromUtf8 idBytes) invalidCiphertext
  let key ← okOr (loadKey store id) (.error (notFoundKey id))
  checked (checkKeyRef store key keyRef)
  checked (requireSymmetricCrypto key)
  let cipher ← checked (newCipher (key.material.getD []))
  let nonceBytes ← slice blob (magic.length + idLen) headerLen
  let nonce ← nonceFromSlice nonceBytes
  let body ← slice blob headerLen blob.length
  let plaintext ← okOr (gcm.decrypt cipher nonce (canonicalContext context) body) invalidCiphertext
  return (key, plaintext)

def reEncrypt (gcm : Gcm) (store : Store) (blob : Bytes) (sourceContext : EncryptionContext)
    (sourceKeyRef : Option String) (destKeyRef : String) (destContext : EncryptionContext)
    (nonce : Nonce) : Checked (KmsKey × KmsKey × Bytes) := do
  let (source, plaintext) ← decrypt gcm store blob sourceContext sourceKeyRef
  let dest ← checked (resolve store destKeyRef)
  let out ← checked (sealBlob gcm dest plaintext destContext nonce)
  return (source, dest, out)

/-- The key, the plaintext data key (the drawn bytes) and the encrypted data key. -/
def generateDataKey (gcm : Gcm) (store : Store) (keyRef : String) (drawn : Bytes)
    (context : EncryptionContext) (nonce : Nonce) : KmsResult (KmsKey × Bytes × Bytes) := do
  let key ← resolve store keyRef
  let blob ← sealBlob gcm key drawn context nonce
  return (key, drawn, blob)

/-! ### What the operations do -/

theorem checked_ok {α : Type} {result : KmsResult α} {value : α} :
    checked result = .ok value ↔ result = .ok value := by
  cases result with
  | error error => exact ⟨nofun, nofun⟩
  | ok found => simp [checked]

theorem checked_no_panic {α : Type} (result : KmsResult α) : checked result ≠ .error .panic := by
  cases result with
  | error error => exact fun same => by simp [checked] at same
  | ok found => exact nofun

theorem slice_ok {bytes part : Bytes} {start stop : Nat} (done : slice bytes start stop = .ok part) :
    (start ≤ stop ∧ stop ≤ bytes.length) ∧ part = (bytes.take stop).drop start := by
  unfold slice at done
  by_cases inside : start ≤ stop ∧ stop ≤ bytes.length
  · rw [if_pos inside] at done
    exact ⟨inside, (Except.ok.inj done).symm⟩
  · rw [if_neg inside] at done
    cases done

/-- A key that can encrypt and decrypt. -/
theorem requireSymmetricCrypto_ok {key : KmsKey} :
    requireSymmetricCrypto key = .ok () ↔ key.keyState = .enabled ∧
      key.keyUsage = "ENCRYPT_DECRYPT" ∧ key.isSymmetric = true ∧
      key.material.map List.length = some 32 := by
  constructor
  · intro done
    obtain ⟨_, enabled, done⟩ := bind_ok done
    obtain ⟨_, usage, done⟩ := bind_ok done
    have right := rejectIf_ok.mp usage
    have kind := rejectIf_ok.mp done
    refine ⟨?_, not_not.mp right, ?_, ?_⟩
    · cases state : key.keyState with
      | enabled => rfl
      | disabled => rw [requireEnabled, state] at enabled; cases enabled
      | pendingDeletion => rw [requireEnabled, state] at enabled; cases enabled
    · simpa using fun symmetric => kind (Or.inl symmetric)
    · exact not_not.mp fun other => kind (Or.inr other)
  · rintro ⟨state, usage, symmetric, material⟩
    have enabled : requireEnabled key = .ok () := by rw [requireEnabled, state]
    rw [requireSymmetricCrypto, enabled]
    show (rejectIf _ _ >>= fun _ => rejectIf _ _) = _
    rw [rejectIf, if_neg (not_not.mpr usage)]
    show rejectIf _ _ = _
    rw [rejectIf, if_neg (by simp [symmetric, material])]

theorem material_length {key : KmsKey} (usable : requireSymmetricCrypto key = .ok ()) :
    (key.material.getD []).length = 32 ∧ key.material = some (key.material.getD []) := by
  obtain ⟨_, _, _, length⟩ := requireSymmetricCrypto_ok.mp usable
  cases material : key.material with
  | none => rw [material] at length; cases length
  | some bytes =>
    rw [material] at length
    exact ⟨Option.some.inj length, rfl⟩

theorem fromUtf8_ok {bytes : Bytes} {text : String} (done : fromUtf8 bytes = some text) :
    utf8 text = bytes := by
  unfold fromUtf8 String.fromUTF8? at done
  split at done
  · rename_i valid
    have same := Option.some.inj done
    have encoded : (utf8 text).toByteArray = text.toByteArray := String.utf8Encode_toList
    have decoded : text.toByteArray = bytes.toByteArray := by
      rw [← same]
      rfl
    have lists := congrArg (fun array : ByteArray => array.data.toList) (encoded.trans decoded)
    simpa using lists
  · cases done

/-- The bytes of a blob. -/
def blobOf (id nonce body : Bytes) : Bytes :=
  magic ++ (id ++ (nonce ++ body))

theorem blobOf_inj {id nonce body id' nonce' body' : Bytes} (ids : id.length = id'.length)
    (nonces : nonce.length = nonce'.length) (same : blobOf id nonce body = blobOf id' nonce' body') :
    id = id' ∧ nonce = nonce' ∧ body = body' := by
  obtain ⟨sameId, rest⟩ := List.append_inj (List.append_cancel_left same) ids
  obtain ⟨sameNonce, sameBody⟩ := List.append_inj rest nonces
  exact ⟨sameId, sameNonce, sameBody⟩

theorem sealBlob_ok {gcm : Gcm} {key : KmsKey} {plaintext blob : Bytes}
    {context : EncryptionContext} {nonce : Nonce}
    (done : sealBlob gcm key plaintext context nonce = .ok blob) :
    requireSymmetricCrypto key = .ok () ∧ blob = blobOf (utf8 key.id) nonce.1
      (gcm.sealed ⟨key.material.getD [], nonce.1, canonicalContext context, plaintext⟩) := by
  obtain ⟨_, usable, done⟩ := bind_ok done
  obtain ⟨cipher, made, done⟩ := bind_ok done
  rw [newCipher, if_pos (material_length usable).1] at made
  cases made
  cases done
  exact ⟨usable, rfl⟩

/-- The reference is absent, or it identifies the key. -/
def Identifies (store : Store) (key : KmsKey) (keyRef : Option String) : Prop :=
  ∀ named, keyRef = some named → ∃ requested, resolve store named = .ok requested ∧
    requested.id = key.id

theorem checkKeyRef_ok {store : Store} {key : KmsKey} {keyRef : Option String} :
    checkKeyRef store key keyRef = .ok () ↔ Identifies store key keyRef := by
  cases keyRef with
  | none => exact ⟨fun _ _ => nofun, fun _ => rfl⟩
  | some given =>
    constructor
    · intro done named same
      cases same
      obtain ⟨requested, resolved, right⟩ := bind_ok done
      exact ⟨requested, resolved, not_not.mp (rejectIf_ok.mp right)⟩
    · intro identifies
      obtain ⟨requested, resolved, same⟩ := identifies given rfl
      rw [checkKeyRef, resolved]
      exact rejectIf_ok.mpr (not_not.mpr same)

/-- A blob in its parts. -/
theorem blob_parts {blob : Bytes} (begun : blob.take 4 = magic) :
    blob = blobOf ((blob.take 40).drop 4) ((blob.take 52).drop 40) (blob.drop 52) := by
  have one : blob.take 52 = blob.take 40 ++ (blob.take 52).drop 40 := by
    conv_lhs => rw [← List.take_append_drop 40 (blob.take 52), List.take_take]
    rfl
  have two : blob.take 40 = magic ++ (blob.take 40).drop 4 := by
    conv_lhs => rw [← List.take_append_drop 4 (blob.take 40), List.take_take]
    rw [← begun]
    rfl
  calc blob = blob.take 52 ++ blob.drop 52 := (List.take_append_drop 52 blob).symm
    _ = (blob.take 40 ++ (blob.take 52).drop 40) ++ blob.drop 52 := by rw [← one]
    _ = ((magic ++ (blob.take 40).drop 4) ++ (blob.take 52).drop 40) ++ blob.drop 52 := by
      rw [← two]
    _ = _ := by simp only [blobOf, List.append_assoc]

/-- **When a blob is decrypted, and to what.** -/
theorem decrypt_ok {gcm : Gcm} {store : Store} {blob : Bytes} {context : EncryptionContext}
    {keyRef : Option String} {key : KmsKey} {plaintext : Bytes}
    (done : decrypt gcm store blob context keyRef = .ok (key, plaintext)) :
    ∃ id nonce body, blob = blobOf (utf8 id) nonce body ∧ (utf8 id).length = idLen ∧
      nonce.length = nonceLen ∧ loadKey store id = some key ∧ Identifies store key keyRef ∧
      requireSymmetricCrypto key = .ok () ∧
      gcm.decrypt (key.material.getD []) nonce (canonicalContext context) body =
        some plaintext := by
  obtain ⟨_, long, done⟩ := bind_ok done
  obtain ⟨start, first, done⟩ := bind_ok done
  obtain ⟨_, begins, done⟩ := bind_ok done
  obtain ⟨idBytes, second, done⟩ := bind_ok done
  obtain ⟨id, text, done⟩ := bind_ok done
  obtain ⟨found, loaded, done⟩ := bind_ok done
  obtain ⟨_, identified, done⟩ := bind_ok done
  obtain ⟨_, usable, done⟩ := bind_ok done
  obtain ⟨cipher, made, done⟩ := bind_ok done
  obtain ⟨nonceBytes, third, done⟩ := bind_ok done
  obtain ⟨nonce, sized, done⟩ := bind_ok done
  obtain ⟨body, last, done⟩ := bind_ok done
  obtain ⟨opened, opens, done⟩ := bind_ok done
  cases done
  have usableKey := checked_ok.mp usable
  rw [newCipher, if_pos (material_length usableKey).1] at made
  cases made
  have enough := rejectIf_ok.mp long
  have wide : headerLen = 52 := rfl
  have idWide : magic.length + idLen = 40 := rfl
  have magicWide : magic.length = 4 := rfl
  obtain ⟨_, rfl⟩ := slice_ok first
  obtain ⟨_, rfl⟩ := slice_ok second
  obtain ⟨_, rfl⟩ := slice_ok third
  obtain ⟨_, rfl⟩ := slice_ok last
  have idBytes := fromUtf8_ok (okOr_ok.mp text)
  have nonceSize : ((blob.take headerLen).drop (magic.length + idLen)).length = nonceLen := by
    rw [List.length_drop, List.length_take, wide, idWide]
    show min 52 blob.length - 40 = 12
    omega
  rw [nonceFromSlice, if_pos nonceSize] at sized
  cases sized
  refine ⟨id, _, _, ?_, ?_, nonceSize, okOr_ok.mp loaded,
    checkKeyRef_ok.mp (checked_ok.mp identified), usableKey, okOr_ok.mp opens⟩
  · have begun : blob.take 4 = magic := not_not.mp (rejectIf_ok.mp begins)
    rw [idBytes, List.take_length]
    exact blob_parts begun
  · rw [idBytes, List.length_drop, List.length_take, idWide, magicWide]
    show min 40 blob.length - 4 = 36
    omega

theorem slice_middle {first part rest : Bytes} {start stop : Nat} (begins : first.length = start)
    (ends : start + part.length = stop) : slice (first ++ (part ++ rest)) start stop = .ok part := by
  subst begins
  subst ends
  rw [slice, if_pos ⟨by omega, by simp only [List.length_append]; omega⟩, ← List.append_assoc,
    List.take_left' (by simp), List.drop_left]

theorem decrypt_blobOf {gcm : Gcm} {store : Store} {context : EncryptionContext}
    {keyRef : Option String} {key : KmsKey} {id : String} {nonce body plaintext : Bytes}
    (idSize : (utf8 id).length = idLen) (nonceSize : nonce.length = nonceLen)
    (bodySize : 16 ≤ body.length) (loaded : loadKey store id = some key)
    (identifies : Identifies store key keyRef) (usable : requireSymmetricCrypto key = .ok ())
    (opens : gcm.decrypt (key.material.getD []) nonce (canonicalContext context) body =
      some plaintext) :
    decrypt gcm store (blobOf (utf8 id) nonce body) context keyRef = .ok (key, plaintext) := by
  have size : (blobOf (utf8 id) nonce body).length = 4 + (36 + (12 + body.length)) := by
    rw [blobOf, List.length_append, List.length_append, List.length_append, idSize, nonceSize]
    rfl
  have header : headerLen = 52 := rfl
  have first : slice (blobOf (utf8 id) nonce body) 0 magic.length = .ok magic :=
    @slice_middle [] magic _ 0 _ rfl rfl
  have second : slice (blobOf (utf8 id) nonce body) magic.length (magic.length + idLen) =
      .ok (utf8 id) :=
    slice_middle rfl (by rw [idSize])
  have third : slice (blobOf (utf8 id) nonce body) (magic.length + idLen) headerLen =
      .ok nonce := by
    rw [blobOf, ← List.append_assoc]
    exact slice_middle (by rw [List.length_append, idSize]) (by rw [nonceSize]; rfl)
  have last : slice (blobOf (utf8 id) nonce body) headerLen
      (blobOf (utf8 id) nonce body).length = .ok body := by
    have parts : blobOf (utf8 id) nonce body = (magic ++ (utf8 id ++ nonce)) ++ (body ++ []) := by
      rw [blobOf, List.append_nil]
      simp only [List.append_assoc]
    rw [size, parts]
    refine slice_middle ?_ (by rw [header]; omega)
    rw [List.length_append, List.length_append, idSize, nonceSize]
    rfl
  have cipher : newCipher (key.material.getD []) = .ok (key.material.getD []) :=
    if_pos (material_length usable).1
  have named : checkKeyRef store key keyRef = .ok () := checkKeyRef_ok.mpr identifies
  refine ok_bind (rejectIf_pass (by omega)) (ok_bind first (ok_bind
    (rejectIf_pass (not_not.mpr rfl)) (ok_bind second (ok_bind
    (okOr_ok.mpr (fromUtf8_utf8 id)) (ok_bind (okOr_ok.mpr loaded) ?_)))))
  refine ok_bind (checked_ok.mpr named) (ok_bind (checked_ok.mpr usable) (ok_bind
    (checked_ok.mpr cipher) (ok_bind third (ok_bind (if_pos nonceSize) (ok_bind last (ok_bind
    (okOr_ok.mpr opens) rfl))))))

/-! ### No panic -/

theorem bind_no_panic {α β : Type} {first : Checked α} {rest : α → Checked β}
    (one : first ≠ .error .panic) (two : ∀ value, first = .ok value → rest value ≠ .error .panic) :
    (first >>= rest) ≠ .error .panic := by
  cases done : first with
  | error fault =>
    intro same
    have panics : fault = .panic := Except.error.inj same
    exact one (done.trans (congrArg Except.error panics))
  | ok value => exact two value done

theorem rejectIf_no_panic (condition : Prop) [Decidable condition] :
    rejectIf condition invalidCiphertext ≠ .error .panic := by
  unfold rejectIf
  split
  · exact fun same => by simp [invalidCiphertext] at same
  · exact nofun

theorem okOr_no_panic {α : Type} (option : Option α) (error : KmsError) :
    okOr option (Fault.error error) ≠ .error .panic := by
  cases option with
  | none =>
    intro same
    simp [okOr] at same
  | some value =>
    intro same
    cases same

theorem slice_no_panic {bytes : Bytes} {start stop : Nat} (order : start ≤ stop)
    (inside : stop ≤ bytes.length) : slice bytes start stop ≠ .error .panic := by
  rw [slice, if_pos ⟨order, inside⟩]
  exact nofun

/-- **No byte string makes `decrypt` panic.** -/
theorem decrypt_no_panic (gcm : Gcm) (store : Store) (blob : Bytes) (context : EncryptionContext)
    (keyRef : Option String) : decrypt gcm store blob context keyRef ≠ .error .panic := by
  have header : headerLen = 52 := rfl
  have idEnd : magic.length + idLen = 40 := rfl
  have magicEnd : magic.length = 4 := rfl
  refine bind_no_panic (rejectIf_no_panic _) fun _ long => ?_
  have enough := rejectIf_ok.mp long
  refine bind_no_panic (slice_no_panic (by omega) (by omega)) fun start _ => ?_
  refine bind_no_panic (rejectIf_no_panic _) fun _ _ => ?_
  refine bind_no_panic (slice_no_panic (by omega) (by omega)) fun idBytes _ => ?_
  refine bind_no_panic (okOr_no_panic _ _) fun id _ => ?_
  refine bind_no_panic (okOr_no_panic _ _) fun key _ => ?_
  refine bind_no_panic (checked_no_panic _) fun _ _ => ?_
  refine bind_no_panic (checked_no_panic _) fun _ _ => ?_
  refine bind_no_panic (checked_no_panic _) fun cipher _ => ?_
  refine bind_no_panic (slice_no_panic (by omega) (by omega)) fun nonceBytes cut => ?_
  have nonceSize : nonceBytes.length = nonceLen := by
    rw [(slice_ok cut).2, List.length_drop, List.length_take, header, idEnd]
    show min 52 blob.length - 40 = 12
    omega
  refine bind_no_panic (by rw [nonceFromSlice, if_pos nonceSize]; exact nofun) fun nonce _ => ?_
  refine bind_no_panic (slice_no_panic (by omega) le_rfl) fun body _ => ?_
  exact bind_no_panic (okOr_no_panic _ _) fun plaintext _ => nofun

/-! ### What is issued -/

section External

variable [External]

theorem resolve_mem {store : Store} {keyRef : String} {key : KmsKey}
    (done : resolve store keyRef = .ok key) : key ∈ store.keys := by
  obtain ⟨parsed, _, done⟩ := bind_ok done
  rcases parsed with id | name
  · exact (loadKey_mem (okOr_ok.mp done)).1
  · obtain ⟨row, _, done⟩ := bind_ok done
    exact (loadKey_mem (okOr_ok.mp done)).1

/-- **A blob that the service has issued** for the plaintext, under the key and the context. -/
inductive Issued (gcm : Gcm) (store : Store) (key : KmsKey) (plaintext : Bytes)
    (context : EncryptionContext) (nonce : Nonce) (blob : Bytes) : Prop
  | encrypt (keyRef : String)
      (done : encrypt gcm store keyRef plaintext context nonce = .ok (key, blob))
  | reEncrypt (old : Bytes) (oldContext : EncryptionContext) (oldKeyRef : Option String)
      (keyRef : String) (source : KmsKey)
      (decrypted : decrypt gcm store old oldContext oldKeyRef = .ok (source, plaintext))
      (done : reEncrypt gcm store old oldContext oldKeyRef keyRef context nonce =
        .ok (source, key, blob))
  | dataKey (keyRef : String)
      (done : generateDataKey gcm store keyRef plaintext context nonce =
        .ok (key, plaintext, blob))

theorem Issued.sealedBlob {gcm : Gcm} {store : Store} {key : KmsKey} {plaintext blob : Bytes}
    {context : EncryptionContext} {nonce : Nonce}
    (issued : Issued gcm store key plaintext context nonce blob) :
    sealBlob gcm key plaintext context nonce = .ok blob ∧ key ∈ store.keys := by
  cases issued with
  | encrypt keyRef done =>
    obtain ⟨_, _, done⟩ := bind_ok done
    obtain ⟨found, resolved, done⟩ := bind_ok done
    obtain ⟨out, made, done⟩ := bind_ok done
    cases done
    exact ⟨made, resolve_mem resolved⟩
  | reEncrypt old oldContext oldKeyRef keyRef source decrypted done =>
    obtain ⟨opened, again, done⟩ := bind_ok done
    rw [decrypted] at again
    cases again
    obtain ⟨found, resolved, done⟩ := bind_ok done
    obtain ⟨out, made, done⟩ := bind_ok done
    cases done
    exact ⟨checked_ok.mp made, resolve_mem (checked_ok.mp resolved)⟩
  | dataKey keyRef done =>
    obtain ⟨found, resolved, done⟩ := bind_ok done
    obtain ⟨out, made, done⟩ := bind_ok done
    cases done
    exact ⟨made, resolve_mem resolved⟩

/-! ### Ids -/

/-- Ids are hyphenated UUIDs: 36 bytes. -/
def WideIds (event : KmsEvent) : Prop :=
  (utf8 event.input.2.drawn.uuid).length = idLen ∧
    ∀ input, event.input.2.request = .createKey input → ∀ id, input.id = some id →
      (utf8 id).length = idLen

/-- The ids of the keys and of those about to be inserted have 36 bytes. -/
def Wide (system : KmsSystem) : Prop :=
  (∀ key ∈ system.shared.keys, (utf8 key.id).length = idLen) ∧
    ∀ client key, system.client client = some (.insertKey key) → (utf8 key.id).length = idLen

theorem run_keys {task : Task} {now : Int} {store : Store} {key : KmsKey}
    (member : key ∈ (task.run now store).2.keys) :
    (∃ old ∈ store.keys, old.id = key.id) ∨ task = .insertKey key := by
  cases task with
  | save change time loaded saved =>
    obtain ⟨old, there, rfl⟩ := save_mem member
    refine Or.inl ⟨old, there, ?_⟩
    split
    · rfl
    · rfl
  | insertKey new =>
    rw [Task.run, writeOr_store, Kms.insertKey] at member
    split at member
    · exact Or.inl ⟨key, member, rfl⟩
    · rcases List.mem_append.mp member with old | added
      · exact Or.inl ⟨key, old, rfl⟩
      · rw [List.mem_singleton.mp added]
        exact Or.inr rfl
  | insertAlias row =>
    rw [Task.run, writeOr_store, Kms.insertAlias] at member
    split at member
    all_goals exact Or.inl ⟨key, member, rfl⟩
  | removeAlias name =>
    rw [Task.run, writeOr_store, Kms.removeAlias] at member
    split at member
    all_goals exact Or.inl ⟨key, member, rfl⟩
  | _ => exact Or.inl ⟨key, member, rfl⟩

theorem run_inserts {task : Task} {now : Int} {store : Store} {key : KmsKey} :
    (task.run now store).1 ≠ .continues (.insertKey key) := by
  intro goes
  rcases run_continues goes with ⟨goal, keyRef, resolved⟩ | ⟨_, _, _, same⟩ |
    ⟨goal, _, found, _, reached⟩
  · rcases resolveTask_ok resolved with ⟨_, same⟩ | ⟨_, same⟩
    all_goals cases same
  · cases same
  · cases goal with
    | change change =>
      obtain ⟨_, _, reached⟩ := bind_ok reached
      cases reached
    | createAlias name =>
      obtain ⟨_, _, reached⟩ := bind_ok reached
      cases reached
    | updateAlias row =>
      obtain ⟨_, _, reached⟩ := bind_ok reached
      cases reached

theorem beginTask_inserts {request : Request} {drawn : Drawn} {now : Int} {key : KmsKey}
    (begun : beginTask request drawn now = .ok (some (.insertKey key))) :
    ∃ input, request = .createKey input ∧ key.id = input.id.getD drawn.uuid := by
  have other : ∀ {goal keyRef}, resolveTask goal keyRef ≠ .ok (.insertKey key) := by
    intro goal keyRef done
    rcases resolveTask_ok done with ⟨_, same⟩ | ⟨_, same⟩
    all_goals cases same
  cases request with
  | createKey input =>
    obtain ⟨built, done, begun⟩ := bind_ok begun
    cases begun
    obtain ⟨_, _, done⟩ := bind_ok done
    obtain ⟨_, _, done⟩ := bind_ok done
    obtain ⟨_, _, done⟩ := bind_ok done
    obtain ⟨_, _, done⟩ := bind_ok done
    obtain ⟨_, _, done⟩ := bind_ok done
    obtain ⟨_, _, done⟩ := bind_ok done
    cases done
    exact ⟨input, rfl, rfl⟩
  | change keyRef change =>
    obtain ⟨_, _, begun⟩ := bind_ok begun
    obtain ⟨_, done, begun⟩ := bind_ok begun
    cases begun
    exact absurd done other
  | createAlias name targetRef =>
    obtain ⟨_, _, begun⟩ := bind_ok begun
    obtain ⟨_, done, begun⟩ := bind_ok begun
    cases begun
    exact absurd done other
  | updateAlias name targetRef =>
    obtain ⟨_, _, begun⟩ := bind_ok begun
    cases begun
  | deleteAlias name =>
    obtain ⟨_, _, begun⟩ := bind_ok begun
    cases begun
  | read => cases begun

theorem wide_taken {event : KmsEvent} (taken : event.Taken (System.step kmsStep))
    (ids : WideIds event) (wide : Wide event.before) : Wide event.after := by
  obtain ⟨keys, tasks⟩ := wide
  refine ⟨fun key member => ?_, fun client key holds => ?_⟩
  · rw [kms_taken_shared taken] at member
    cases running : taskOf event with
    | none =>
      rw [running] at member
      exact keys key (mem_purgeExpired.mp member).1
    | some task =>
      rw [running] at member
      rcases run_keys member with ⟨old, there, same⟩ | rfl
      · rw [← same]
        exact keys old there
      · exact tasks _ key running
  · rcases kms_taken_task taken holds with before | ⟨task, _, goes⟩ | begun
    · exact tasks client key before
    · exact absurd goes run_inserts
    · obtain ⟨input, asked, same⟩ := beginTask_inserts begun
      rw [same]
      cases given : input.id with
      | none => exact ids.1
      | some id => exact ids.2 input asked id given

theorem wide_run {history : List KmsEvent} {final : KmsSystem} (run : KmsRun history final)
    (ids : ∀ event ∈ history, WideIds event) : Wide final :=
  run.invariant_along ⟨fun _ => nofun, fun _ _ => nofun⟩ fun event member taken =>
    wide_taken taken (ids event member)

/-! ### What is decrypted -/

def sealingOf (key : KmsKey) (plaintext : Bytes) (context : EncryptionContext) (nonce : Nonce) :
    Sealing :=
  ⟨key.material.getD [], nonce.1, canonicalContext context, plaintext⟩

/-- The key still exists. -/
def Still (key : KmsKey) (store : Store) (row : KmsKey) : Prop :=
  loadKey store key.id = some row ∧ row.material = key.material ∧ row.keySpec = key.keySpec ∧
    row.keyUsage = key.keyUsage

/-- **Where the blob of a sealing is decrypted.** -/
theorem sealed_decrypts {gcm : Gcm} {made : Sealing → Prop} (laws : GcmLaws gcm made)
    {key : KmsKey} {plaintext blob : Bytes} {context : EncryptionContext} {nonce : Nonce}
    (done : sealBlob gcm key plaintext context nonce = .ok blob)
    (wide : (utf8 key.id).length = idLen) (member : made (sealingOf key plaintext context nonce))
    (store : Store) (other : EncryptionContext) (keyRef : Option String) (row : KmsKey)
    (opened : Bytes) :
    decrypt gcm store blob other keyRef = .ok (row, opened) ↔
      opened = plaintext ∧ other = context ∧ Still key store row ∧ row.keyState = .enabled ∧
        Identifies store row keyRef := by
  obtain ⟨usable, rfl⟩ := sealBlob_ok done
  obtain ⟨_, usage, symmetric, _⟩ := requireSymmetricCrypto_ok.mp usable
  have size := (material_length usable).2
  constructor
  · intro decrypted
    obtain ⟨id, nonceToo, body, same, idSize, nonceSize, loaded, identifies, usableRow, opens⟩ :=
      decrypt_ok decrypted
    obtain ⟨ids, _, rfl⟩ := blobOf_inj (wide.trans idSize.symm)
      (nonce.2.trans nonceSize.symm) same
    have ids := utf8_injective ids
    subst ids
    have equal := (laws.opens _ member _ _ _ _).mp opens
    simp only [sealingOf, Sealing.mk.injEq] at equal
    obtain ⟨materials, _, contexts, plaintexts⟩ := equal
    obtain ⟨enabled, usageRow, symmetricRow, _⟩ := requireSymmetricCrypto_ok.mp usableRow
    refine ⟨plaintexts.symm, (canonicalContext_injective contexts).symm, ⟨loaded, ?_, ?_, ?_⟩,
      enabled, identifies⟩
    · rw [size, (material_length usableRow).2, materials]
    · exact (beq_iff_eq.mp symmetricRow).trans (beq_iff_eq.mp symmetric).symm
    · exact usageRow.trans usage.symm
  · rintro ⟨rfl, rfl, ⟨loaded, material, spec, usageRow⟩, enabled, identifies⟩
    have usableRow : requireSymmetricCrypto row = .ok () := by
      refine requireSymmetricCrypto_ok.mpr ⟨enabled, usageRow.trans usage, ?_, ?_⟩
      · rw [KmsKey.isSymmetric, spec]
        exact symmetric
      · rw [material]
        exact (requireSymmetricCrypto_ok.mp usable).2.2.2
    refine decrypt_blobOf wide nonce.2 (laws.tagged _ member) loaded identifies usableRow ?_
    rw [material]
    exact (laws.opens _ member _ _ _ _).mpr rfl

/-- **What is decrypted was sealed.** -/
theorem decrypt_made {gcm : Gcm} {made : Sealing → Prop} (laws : GcmLaws gcm made) {store : Store}
    {bytes opened : Bytes} {context : EncryptionContext} {keyRef : Option String} {row : KmsKey}
    (decrypted : decrypt gcm store bytes context keyRef = .ok (row, opened)) :
    ∃ sealing, made sealing ∧ bytes = blobOf (utf8 row.id) sealing.nonce (gcm.sealed sealing) ∧
      row.material = some sealing.material ∧ sealing.nonce.length = nonceLen ∧
      (utf8 row.id).length = idLen ∧ row ∈ store.keys := by
  obtain ⟨id, nonce, body, rfl, idSize, nonceSize, loaded, _, usable, opens⟩ := decrypt_ok decrypted
  obtain ⟨there, rfl⟩ := loadKey_mem loaded
  obtain ⟨member, rfl⟩ := laws.opened opens
  exact ⟨_, member, rfl, (material_length usable).2, nonceSize, idSize, there⟩

/-- **One part of a blob is altered**: another magic number, or another id, nonce or body with the
other parts as they were. -/
inductive Altered (id nonce body : Bytes) : Bytes → Prop
  | magic (start rest : Bytes) (size : start.length = magic.length) (other : start ≠ magic) :
      Altered id nonce body (start ++ rest)
  | id (given : Bytes) (size : given.length = idLen) (other : given ≠ id) :
      Altered id nonce body (blobOf given nonce body)
  | nonce (given : Bytes) (size : given.length = nonceLen) (other : given ≠ nonce) :
      Altered id nonce body (blobOf id given body)
  | body (given : Bytes) (other : given ≠ body) : Altered id nonce body (blobOf id nonce given)

/-- No nonce was drawn twice, and no other key of the store has the material. -/
structure FreshDraws (made : Sealing → Prop) (store : Store) (key : KmsKey) : Prop where
  nonces : ∀ sealing other, made sealing → made other → sealing.nonce = other.nonce →
    sealing = other
  materials : ∀ row ∈ store.keys, row.material = key.material → row.id = key.id

/-- **An altered blob is not decrypted.** -/
theorem altered_fails {gcm : Gcm} {made : Sealing → Prop} (laws : GcmLaws gcm made) {store : Store}
    {key : KmsKey} {plaintext bytes : Bytes} {context other : EncryptionContext} {nonce : Nonce}
    {keyRef : Option String} {result : KmsKey × Bytes}
    (usable : requireSymmetricCrypto key = .ok ()) (wide : (utf8 key.id).length = idLen)
    (member : made (sealingOf key plaintext context nonce)) (fresh : FreshDraws made store key)
    (altered : Altered (utf8 key.id) nonce.1 (gcm.sealed (sealingOf key plaintext context nonce))
      bytes) :
    decrypt gcm store bytes other keyRef ≠ .ok result := by
  intro decrypted
  obtain ⟨row, opened⟩ := result
  obtain ⟨sealing, memberToo, same, material, nonceSize, idSize, there⟩ :=
    decrypt_made laws decrypted
  have ours : key.material = some (sealingOf key plaintext context nonce).material :=
    (material_length usable).2
  cases altered with
  | magic start rest size different =>
    exact different (List.append_inj same size).1
  | id given size different =>
    obtain ⟨ids, _, bodies⟩ := blobOf_inj (size.trans idSize.symm) (nonce.2.trans nonceSize.symm) same
    have equal := laws.injective member memberToo bodies
    subst equal
    rw [fresh.materials row there (material.trans ours.symm)] at ids
    exact different ids
  | nonce given size different =>
    obtain ⟨_, nonces, bodies⟩ := blobOf_inj (wide.trans idSize.symm) (size.trans nonceSize.symm) same
    have equal := laws.injective member memberToo bodies
    subst equal
    exact different nonces
  | body given different =>
    obtain ⟨_, nonces, bodies⟩ := blobOf_inj (wide.trans idSize.symm)
      (nonce.2.trans nonceSize.symm) same
    have equal := fresh.nonces _ _ member memberToo nonces
    subst equal
    exact different bodies

/-- **Ciphertexts are bound to their key and context.** -/
theorem ciphertext_bound {gcm : Gcm} {made : Sealing → Prop} (laws : GcmLaws gcm made)
    {history : List KmsEvent} {system : KmsSystem} (run : KmsRun history system)
    (ids : ∀ event ∈ history, WideIds event) {key : KmsKey} {plaintext blob : Bytes}
    {context : EncryptionContext} {nonce : Nonce}
    (issued : Issued gcm system.shared key plaintext context nonce blob)
    (member : made (sealingOf key plaintext context nonce)) (store : Store) :
    (∀ other keyRef row opened, decrypt gcm store blob other keyRef = .ok (row, opened) ↔
      opened = plaintext ∧ other = context ∧ Still key store row ∧ row.keyState = .enabled ∧
        Identifies store row keyRef) ∧
    (∀ bytes other keyRef row opened, decrypt gcm store bytes other keyRef = .ok (row, opened) →
      ∃ sealing, made sealing ∧
        bytes = blobOf (utf8 row.id) sealing.nonce (gcm.sealed sealing)) ∧
    (FreshDraws made store key → ∀ bytes other keyRef result,
      Altered (utf8 key.id) nonce.1 (gcm.sealed (sealingOf key plaintext context nonce)) bytes →
      decrypt gcm store bytes other keyRef ≠ .ok result) ∧
    ∀ bytes other keyRef, decrypt gcm store bytes other keyRef ≠ .error .panic := by
  obtain ⟨done, there⟩ := issued.sealedBlob
  have wide := (wide_run run ids).1 key there
  refine ⟨sealed_decrypts laws done wide member store, ?_, ?_, ?_⟩
  · intro bytes other keyRef row opened decrypted
    obtain ⟨sealing, memberToo, same, _⟩ := decrypt_made laws decrypted
    exact ⟨sealing, memberToo, same⟩
  · intro fresh bytes other keyRef result altered
    exact altered_fails laws (sealBlob_ok done).1 wide member fresh altered
  · exact fun bytes other keyRef => decrypt_no_panic gcm store bytes other keyRef

end External

/-! ### A sample -/

section Sample

@[reducible]
local instance cryptoExternal : External := External.sample

/-- A sealing under a key of zeros: `h`, in the context `{"a":"b"}`. -/
def sampleSealing : Sealing where
  material := List.replicate 32 0
  nonce := List.replicate 12 0
  aad := utf8 "\x7b\"a\":\"b\"\x7d"
  plaintext := [104]

/-- What AES-256-GCM makes of it. -/
def sampleBody : Bytes :=
  [166, 108, 155, 207, 1, 79, 74, 149, 75, 100, 166, 167, 151, 159, 174, 94, 63]

/-- A cipher that knows one sealing. -/
def sampleGcm : Gcm where
  encrypt material nonce aad plaintext :=
    if material = sampleSealing.material ∧ nonce = sampleSealing.nonce ∧ aad = sampleSealing.aad ∧
      plaintext = sampleSealing.plaintext then sampleBody else []
  decrypt material nonce aad body :=
    if material = sampleSealing.material ∧ nonce = sampleSealing.nonce ∧ aad = sampleSealing.aad ∧
      body = sampleBody then some sampleSealing.plaintext else none

theorem sampleGcm_sealed : sampleGcm.sealed sampleSealing = sampleBody := by
  simp [Gcm.sealed, sampleGcm]

theorem sampleGcm_opens {material nonce aad body message : Bytes}
    (done : sampleGcm.decrypt material nonce aad body = some message) :
    sampleSealing = ⟨material, nonce, aad, message⟩ ∧ body = sampleBody := by
  unfold sampleGcm at done
  simp only at done
  split at done
  · rename_i same
    obtain ⟨rfl, rfl, rfl, rfl⟩ := same
    cases done
    exact ⟨rfl, rfl⟩
  · cases done

theorem sampleGcm_laws : GcmLaws sampleGcm (· = sampleSealing) where
  opens := by
    rintro sealing rfl material nonce aad message
    rw [sampleGcm_sealed]
    refine ⟨fun done => (sampleGcm_opens done).1, fun same => ?_⟩
    have parts := same
    simp only [sampleSealing, Sealing.mk.injEq] at parts
    obtain ⟨rfl, rfl, rfl, rfl⟩ := parts
    simp [sampleGcm, sampleSealing]
  rejects material nonce aad body message done :=
    ⟨sampleSealing, rfl, (sampleGcm_opens done).2.trans sampleGcm_sealed.symm⟩
  tagged := by
    rintro sealing rfl
    rw [sampleGcm_sealed]
    decide

def sampleId : String :=
  "00000000-0000-4000-8000-000000000000"

def sampleContext : EncryptionContext :=
  (∅ : EncryptionContext).insert "a" "b"

def sampleNonce : Nonce :=
  ⟨List.replicate 12 0, rfl⟩

def sampleKeyInput : CreateKeyInput :=
  { sampleInput with
    id := some sampleId
    material := some (List.replicate 32 0) }

def keyTurn (request : Request) : Nat × Turn :=
  (0, { now := 0, request := request, drawn := { uuid := sampleId, bytes := [] } })

/-- A seeded key of zeros is created. -/
def sampleKeyTurns : List (Nat × Turn) :=
  [keyTurn (.createKey sampleKeyInput), keyTurn .read]

def sampleSystem : KmsSystem :=
  Run.final (System.step kmsStep) KmsSystem.empty sampleKeyTurns

/-- What was encrypted is decrypted. -/
theorem ciphertext_bound_sample : ∃ key blob,
    encrypt sampleGcm sampleSystem.shared sampleId [104] sampleContext sampleNonce =
      .ok (key, blob) ∧
    decrypt sampleGcm sampleSystem.shared blob sampleContext none = .ok (key, [104]) := by
  have run : KmsRun (Run.trace (System.step kmsStep) KmsSystem.empty sampleKeyTurns) sampleSystem :=
    Run.of_trace (System.step kmsStep) sampleKeyTurns KmsSystem.empty
  obtain ⟨⟨key, blob⟩, found⟩ : ∃ pair, (encrypt sampleGcm sampleSystem.shared sampleId [104]
      sampleContext sampleNonce).toOption = some pair :=
    Option.isSome_iff_exists.mp (by decide)
  have done : encrypt sampleGcm sampleSystem.shared sampleId [104] sampleContext sampleNonce =
      .ok (key, blob) := by
    cases result : encrypt sampleGcm sampleSystem.shared sampleId [104] sampleContext
        sampleNonce with
    | error error => rw [result] at found; cases found
    | ok pair => rw [result] at found; rw [Option.some.inj found]
  have issued : Issued sampleGcm sampleSystem.shared key [104] sampleContext sampleNonce blob :=
    .encrypt sampleId done
  have there := issued.sealedBlob.2
  have facts : ∀ row ∈ sampleSystem.shared.keys, row.material = some (List.replicate 32 0) ∧
      row.keyState = .enabled := by decide
  have member : sealingOf key [104] sampleContext sampleNonce = sampleSealing := by
    rw [sealingOf, (facts key there).1]
    have aad : canonicalContext sampleContext = sampleSealing.aad := by decide
    rw [aad]
    rfl
  have ids : ∀ event ∈ Run.trace (System.step kmsStep) KmsSystem.empty sampleKeyTurns,
      WideIds event := by
    intro event listed
    have inputs := List.mem_map_of_mem (f := Event.input) listed
    rw [Run.trace_inputs] at inputs
    have wide : (utf8 sampleId).length = idLen := by decide
    simp only [sampleKeyTurns, List.mem_cons, List.not_mem_nil, or_false] at inputs
    rcases inputs with same | same
    · rw [WideIds, same]
      refine ⟨wide, fun input asked id given => ?_⟩
      cases asked
      cases given
      exact wide
    · rw [WideIds, same]
      exact ⟨wide, fun _ => nofun⟩
  have loaded : loadKey sampleSystem.shared key.id = some key :=
    (loadKey_eq_some (consistent_run run).1.1).mpr ⟨there, rfl⟩
  refine ⟨key, blob, done, ((ciphertext_bound sampleGcm_laws run ids issued member
    sampleSystem.shared).1 sampleContext none key [104]).mpr ?_⟩
  exact ⟨rfl, rfl, ⟨loaded, rfl, rfl, rfl⟩, (facts key there).2, fun _ => nofun⟩

end Sample

end CloudTwin.Kms
