/-
**The signing key and the tokens** (`aws/cognito/tokens.rs`, `db.rs`, `control.rs`).

The key is generated on first use and kept in `cloudtwin_meta`. Several requests can find no key and
generate one each; the first that writes wins, and the others read what it wrote. A reset clears the
tables of the services around them.

* `SigningKeys.sign`, `SigningKeys.verify` — tokens, over the functions of the crates.
* `verify_iff` — which tokens are accepted: those that the key signs, and no other text.
* `Task`, `run` — the calls of `load_pem` and `keys`, a reset, and what the services write.
* `truth_stays`, `run_spec` — what one call does; `keys_are_the_truth`, what a run does.
* `tokens_accepted` — what one request signs every other request accepts, also after a restart.
-/

import CloudTwin.Control.Reset
import CloudTwin.Lib.Segments
import CloudTwin.Lib.Tasks

namespace CloudTwin.Cognito.Signing

open Lib Lib.Text Lib.Base64 Lib.Segments

/-! ### Tokens -/

/-- **The RSA functions of the crates**, with private keys `κ` and public keys `π`. -/
class Rsa (κ π : Type) where
  fromPkcs8Pem : String → Option κ
  fromPkcs1Pem : String → Option κ
  toPublicKey : κ → π
  /-- The modulus and the exponent, in big-endian bytes. -/
  modulus : π → List UInt8
  exponent : π → List UInt8
  /-- A PKCS #1 v1.5 signature with SHA-256. -/
  sign : κ → List UInt8 → List UInt8
  /-- `Signature::try_from` and `verify`. -/
  verify : π → List UInt8 → List UInt8 → Bool
  /-- `Sha256::digest`. -/
  digest : List UInt8 → List UInt8

/-- **What the tokens rely on**: of a key and a message there is one PKCS #1 v1.5 signature. -/
structure RsaLaws (κ π : Type) [Rsa κ π] : Prop where
  unique : ∀ (key : κ) (message signature : List UInt8),
    Rsa.verify κ (Rsa.toPublicKey key : π) message signature = true ↔ signature = Rsa.sign π key message

variable {κ π : Type} [Rsa κ π]

/-- A signer, and the verifier that belongs to it. -/
structure SigningKeys (κ π : Type) [Rsa κ π] where
  signer : κ
  verifier : π
  kid : String
  n : String
  e : String
  pair : verifier = Rsa.toPublicKey signer

/-- `parse_pem`. -/
def parsePem (pem : String) : Option (SigningKeys κ π) :=
  ((Rsa.fromPkcs8Pem π pem : Option κ).or (Rsa.fromPkcs1Pem π pem)).map fun key =>
    let verifier : π := Rsa.toPublicKey key
    let nBytes := Rsa.modulus κ verifier
    let eBytes := Rsa.exponent κ verifier
    { signer := key
      verifier
      kid := standardEncode (Rsa.digest κ π (nBytes ++ eBytes))
      n := urlSafeNoPadEncode nBytes
      e := urlSafeNoPadEncode eBytes
      pair := rfl }

/-- `serde_json::from_slice`. -/
def fromSlice [External] (bytes : List UInt8) : Option Json :=
  (fromUtf8 bytes).bind External.jsonFromStr

namespace SigningKeys

variable [External]

def header (keys : SigningKeys κ π) : Json := .obj [("alg", .str "RS256"), ("kid", .str keys.kid)]

def sign (keys : SigningKeys κ π) (claims : Json) : String :=
  let signingInput := urlSafeNoPadEncode (utf8 (External.jsonToString keys.header)) ++ "." ++
    urlSafeNoPadEncode (utf8 (External.jsonToString claims))
  let sig := Rsa.sign π keys.signer (utf8 signingInput)
  signingInput ++ "." ++ urlSafeNoPadEncode sig

/-- Verify the signature and return the claims (expiry is checked by callers). -/
def verify (keys : SigningKeys κ π) (token : String) : Option Json :=
  match split '.' token with
  | [h, p, s] =>
    match (urlSafeNoPadDecode h).bind fromSlice with
    | none => none
    | some header =>
      if (header.get "alg").bind Json.asStr ≠ some "RS256" then none
      else
        match urlSafeNoPadDecode s with
        | none => none
        | some sig =>
          if Rsa.verify κ keys.verifier (utf8 (h ++ "." ++ p)) sig then
            (urlSafeNoPadDecode p).bind fromSlice
          else none
  | _ => none

/-- The token of two JSON texts. -/
def compact (keys : SigningKeys κ π) (header payload : List UInt8) : String :=
  let signingInput := urlSafeNoPadEncode header ++ "." ++ urlSafeNoPadEncode payload
  signingInput ++ "." ++ urlSafeNoPadEncode (Rsa.sign π keys.signer (utf8 signingInput))

end SigningKeys

section Tokens

variable [External] (laws : RsaLaws κ π)

include laws

/-- **Which tokens are accepted**: the header says RS256, the payload holds the claims, and the text is
the one that the key signs for the two. There is no second text with the same header and payload. -/
theorem verify_iff (keys : SigningKeys κ π) (token : String) (claims : Json) :
    keys.verify token = some claims ↔ ∃ header payload value, fromSlice header = some value ∧
      (value.get "alg").bind Json.asStr = some "RS256" ∧ fromSlice payload = some claims ∧
        token = keys.compact header payload := by
  have dot : String.singleton '.' = "." := rfl
  constructor
  · intro accepted
    unfold SigningKeys.verify at accepted
    split at accepted
    · rename_i h p s parts
      obtain ⟨rfl, _⟩ := split_three.mp parts
      cases decodedHeader : urlSafeNoPadDecode h with
      | none =>
        rw [decodedHeader] at accepted
        cases accepted
      | some header =>
        rw [decodedHeader, Option.bind_some] at accepted
        cases isJson : fromSlice header with
        | none =>
          rw [isJson] at accepted
          cases accepted
        | some value =>
          rw [isJson] at accepted
          dsimp only at accepted
          split at accepted
          · cases accepted
          · rename_i alg
            cases decodedSignature : urlSafeNoPadDecode s with
            | none =>
              rw [decodedSignature] at accepted
              cases accepted
            | some sig =>
              rw [decodedSignature] at accepted
              dsimp only at accepted
              split at accepted
              · rename_i signed
                rw [keys.pair] at signed
                obtain rfl := (laws.unique keys.signer _ _).mp signed
                obtain ⟨payload, decodedPayload, claimed⟩ := Option.bind_eq_some_iff.mp accepted
                refine ⟨header, payload, value, isJson, Decidable.not_not.mp alg, claimed, ?_⟩
                unfold SigningKeys.compact
                dsimp only
                rw [dot, encode_of_decode decodedHeader, encode_of_decode decodedPayload,
                  encode_of_decode decodedSignature]
              · cases accepted
    · cases accepted
  · rintro ⟨header, payload, value, isJson, alg, claimed, rfl⟩
    have parts := split_three.mpr ⟨rfl, encode_no_dot header, encode_no_dot payload, encode_no_dot
      (Rsa.sign π keys.signer (utf8 (urlSafeNoPadEncode header ++ "." ++ urlSafeNoPadEncode payload)))⟩
    have whole : keys.compact header payload = urlSafeNoPadEncode header ++ String.singleton '.' ++
        urlSafeNoPadEncode payload ++ String.singleton '.' ++ urlSafeNoPadEncode (Rsa.sign π keys.signer
          (utf8 (urlSafeNoPadEncode header ++ "." ++ urlSafeNoPadEncode payload))) := rfl
    have decoded : ∀ bytes, urlSafeNoPadDecode (urlSafeNoPadEncode bytes) = some bytes := decode_encode _
    have signed := (laws.unique keys.signer
      (utf8 (urlSafeNoPadEncode header ++ "." ++ urlSafeNoPadEncode payload)) _).mpr rfl
    rw [← keys.pair] at signed
    unfold SigningKeys.verify
    rw [whole, parts]
    dsimp only
    rw [decoded, Option.bind_some, isJson]
    dsimp only
    rw [if_neg (not_not_intro alg), decoded]
    dsimp only
    rw [if_pos signed, decoded, Option.bind_some, claimed]

/-- A signed token is accepted, where JSON texts are read as they were written. -/
theorem verify_sign (keys : SigningKeys κ π) {claims : Json}
    (written : ∀ value ∈ [keys.header, claims],
      External.jsonFromStr (External.jsonToString value) = some value) :
    keys.verify (keys.sign claims) = some claims := by
  have read : ∀ value ∈ [keys.header, claims],
      fromSlice (utf8 (External.jsonToString value)) = some value := by
    intro value member
    unfold fromSlice
    rw [fromUtf8_utf8, Option.bind_some]
    exact written value member
  exact (verify_iff laws keys _ claims).mpr ⟨_, _, keys.header, read _ (by simp), rfl, read _ (by simp), rfl⟩

end Tokens

/-! ### The key of the server -/

/-- A row of a table; those of `cloudtwin_meta` are a key and a value. -/
inductive StoredRow (ρ : Type) where
  | entry (key value : String)
  | other (row : ρ)

section Server

variable {ρ : Type}

/-- `cloudtwin_meta` among the tables. -/
def metaName : Control.TableName := ⟨Control.metaTable, List.mem_cons_self⟩

def metaKey : String := "cognito.signing_key"

def StoredRow.value (key : String) : StoredRow ρ → Option String
  | entry own value => if own = key then some value else none
  | other _ => none

/-- `meta_get`. -/
def metaGet (database : Control.Database (StoredRow ρ)) (key : String) : Option String :=
  (database.rows metaName).findSome? (StoredRow.value key)

/-- `meta_set`: a row of the key is updated, or one is inserted. -/
def metaSet (database : Control.Database (StoredRow ρ)) (key value : String) :
    Control.Database (StoredRow ρ) :=
  { database with
    rows := Function.update database.rows metaName
      (if (metaGet database key).isSome then
        (database.rows metaName).map fun row =>
          if (row.value key).isSome then .entry key value else row
      else database.rows metaName ++ [.entry key value]) }

/-- What a service writes: its own tables. -/
structure ServiceWrite (ρ : Type) where
  write : Control.Database (StoredRow ρ) → Control.Database (StoredRow ρ)
  keepsMeta : ∀ database, (write database).rows metaName = database.rows metaName

/-- The database, and what the process caches. -/
structure Twin (κ π ρ : Type) [Rsa κ π] where
  database : Control.Database (StoredRow ρ)
  fileCache : List (String × String)
  keyCache : List (List UInt8 × SigningKeys κ π)

/-- A process that has just started. -/
def started (database : Control.Database (StoredRow ρ)) : Twin κ π ρ := ⟨database, [], []⟩

inductive Request (ρ : Type) where
  /-- `keys`, which each request that signs or verifies begins with. -/
  | keys
  /-- The transaction of `reset`. -/
  | reset (prefixes : List String)
  | other (service : ServiceWrite ρ)

/-- What a request does next. -/
inductive Task (κ π ρ : Type) [Rsa κ π] where
  | lookFile (path : String)
  | readFile (path : String)
  | keepFile (path pem : String)
  | readMeta
  | generate
  | firstWriter (generated : String)
  | lookKeys (pem : String)
  | keepKeys (pem : String) (parsed : SigningKeys κ π)
  | reset (prefixes : List String)
  | other (service : ServiceWrite ρ)

inductive KeyFailure where
  | file
  | database
  | generation
  | pem

inductive Reply (κ π : Type) [Rsa κ π] where
  | keys (keys : SigningKeys κ π)
  | failed (failure : KeyFailure)
  | done

/-- What a call meets: whether it fails, and the key that it generates. -/
structure Call where
  fails : Bool
  generated : String

variable (signingKeyPath : Option String) (files : String → Option String)

/-- The first call of a request. -/
def first : Request ρ → Task κ π ρ
  | .keys =>
    match signingKeyPath with
    | some path => .lookFile path
    | none => .readMeta
  | .reset prefixes => .reset prefixes
  | .other service => .other service

/-- **One call**: a lock that is held, a file that is read, or a call of the database. -/
def run (call : Call) : Task κ π ρ → Twin κ π ρ → Progress (Task κ π ρ) (Reply κ π) × Twin κ π ρ
  | .lookFile path, twin =>
    match twin.fileCache.lookup path with
    | some pem => (.continues (.lookKeys pem), twin)
    | none => (.continues (.readFile path), twin)
  | .readFile path, twin =>
    match files path with
    | some pem => if call.fails then (.ends (.failed .file), twin) else (.continues (.keepFile path pem), twin)
    | none => (.ends (.failed .file), twin)
  | .keepFile path pem, twin =>
    (.continues (.lookKeys pem), { twin with fileCache := (path, pem) :: twin.fileCache })
  | .readMeta, twin =>
    if call.fails then (.ends (.failed .database), twin)
    else
      match metaGet twin.database metaKey with
      | some pem => (.continues (.lookKeys pem), twin)
      | none => (.continues .generate, twin)
  | .generate, twin =>
    if call.fails then (.ends (.failed .generation), twin)
    else (.continues (.firstWriter call.generated), twin)
  -- Another request may have generated a key concurrently; first writer wins.
  | .firstWriter generated, twin =>
    if call.fails then (.ends (.failed .database), twin)
    else
      match metaGet twin.database metaKey with
      | some existing => (.continues (.lookKeys existing), twin)
      | none =>
        (.continues (.lookKeys generated), { twin with database := metaSet twin.database metaKey generated })
  | .lookKeys pem, twin =>
    match twin.keyCache.lookup (Rsa.digest κ π (utf8 pem)) with
    | some keys => (.ends (.keys keys), twin)
    | none =>
      match parsePem pem with
      | none => (.ends (.failed .pem), twin)
      | some parsed => (.continues (.keepKeys pem parsed), twin)
  | .keepKeys pem parsed, twin =>
    (.ends (.keys parsed),
      { twin with keyCache := (Rsa.digest κ π (utf8 pem), parsed) :: twin.keyCache })
  | .reset prefixes, twin =>
    (.ends .done, { twin with database := Control.clearTables prefixes twin.database })
  | .other service, twin => (.ends .done, { twin with database := service.write twin.database })

/-! ### One key for all -/

/-- The key that counts: of the file if one is configured, of the database otherwise. -/
def truth (twin : Twin κ π ρ) : Option String :=
  match signingKeyPath with
  | some path => files path
  | none => metaGet twin.database metaKey

/-- What is cached was read. -/
structure Cached (twin : Twin κ π ρ) : Prop where
  paths : ∀ entry ∈ twin.fileCache, files entry.1 = some entry.2
  keys : ∀ entry ∈ twin.keyCache, (truth signingKeyPath files twin).bind parsePem = some entry.2

/-- The key that a request carries is the one that counts. -/
def Carries (twin : Twin κ π ρ) : Task κ π ρ → Prop
  | .lookFile path => signingKeyPath = some path
  | .readFile path => signingKeyPath = some path
  | .keepFile path pem => signingKeyPath = some path ∧ files path = some pem
  | .readMeta => signingKeyPath = none
  | .generate => signingKeyPath = none
  | .firstWriter _ => signingKeyPath = none
  | .lookKeys pem => truth signingKeyPath files twin = some pem
  | .keepKeys pem parsed => truth signingKeyPath files twin = some pem ∧ parsePem pem = some parsed
  | .reset _ => True
  | .other _ => True

theorem metaGet_metaSet {database : Control.Database (StoredRow ρ)} {key : String} (value : String)
    (absent : metaGet database key = none) : metaGet (metaSet database key value) key = some value := by
  unfold metaGet at absent
  unfold metaSet metaGet
  dsimp only
  rw [absent, Function.update_self, if_neg (by simp), List.findSome?_append, absent]
  simp [StoredRow.value]

theorem metaGet_congr {first second : Control.Database (StoredRow ρ)}
    (same : first.rows metaName = second.rows metaName) (key : String) :
    metaGet first key = metaGet second key := by
  unfold metaGet
  rw [same]

theorem clearTables_meta (prefixes : List String) (database : Control.Database (StoredRow ρ)) :
    (Control.clearTables prefixes database).rows metaName = database.rows metaName := by
  unfold Control.clearTables
  dsimp only
  rw [if_neg fun both => both.1 rfl]

/-- **A key that counts stays**, whatever is called. -/
theorem truth_stays (call : Call) (task : Task κ π ρ) {twin : Twin κ π ρ} {pem : String}
    (counts : truth signingKeyPath files twin = some pem) :
    truth signingKeyPath files (run files call task twin).2 = some pem := by
  cases configured : signingKeyPath with
  | some path =>
    rw [configured] at counts
    exact counts
  | none =>
    rw [configured] at counts
    change metaGet twin.database metaKey = some pem at counts
    show metaGet (run files call task twin).2.database metaKey = some pem
    cases task with
    | lookFile path =>
      simp only [run]
      split <;> exact counts
    | readFile path =>
      simp only [run]
      split
      · split <;> exact counts
      · exact counts
    | keepFile path pem => exact counts
    | readMeta =>
      simp only [run]
      split
      · exact counts
      · split <;> exact counts
    | generate =>
      simp only [run]
      split <;> exact counts
    | firstWriter generated =>
      simp only [run]
      rw [counts]
      split <;> exact counts
    | lookKeys pem =>
      simp only [run]
      split
      · exact counts
      · split <;> exact counts
    | keepKeys pem parsed => exact counts
    | reset prefixes => exact (metaGet_congr (clearTables_meta prefixes twin.database) metaKey).trans counts
    | other service => exact (metaGet_congr (service.keepsMeta twin.database) metaKey).trans counts

theorem mem_of_lookup {α β : Type} [BEq α] [LawfulBEq α] {entries : List (α × β)} {key : α} {value : β}
    (found : entries.lookup key = some value) : (key, value) ∈ entries := by
  obtain ⟨before, after, rfl, _⟩ := List.lookup_eq_some_iff.mp found
  simp

theorem carries_stays (call : Call) (task other : Task κ π ρ) {twin : Twin κ π ρ}
    (carries : Carries signingKeyPath files twin other) :
    Carries signingKeyPath files (run files call task twin).2 other := by
  cases other with
  | lookKeys pem => exact truth_stays signingKeyPath files call task carries
  | keepKeys pem parsed => exact ⟨truth_stays signingKeyPath files call task carries.1, carries.2⟩
  | lookFile path => exact carries
  | readFile path => exact carries
  | keepFile path pem => exact carries
  | readMeta => exact carries
  | generate => exact carries
  | firstWriter generated => exact carries
  | reset prefixes => trivial
  | other service => trivial

/-- What a call leaves behind: the caches hold what was read, the next call carries the key that
counts, and a request that ends with keys ends with those of that key. -/
structure Kept (result : Progress (Task κ π ρ) (Reply κ π) × Twin κ π ρ) : Prop where
  cached : Cached signingKeyPath files result.2
  carries : ∀ next, result.1 = .continues next → Carries signingKeyPath files result.2 next
  keys : ∀ keys, result.1 = .ends (.keys keys) → (truth signingKeyPath files result.2).bind parsePem = some keys

theorem cached_stays (call : Call) (task : Task κ π ρ) {twin after : Twin κ π ρ}
    (cached : Cached signingKeyPath files twin) (same : (run files call task twin).2 = after)
    (paths : after.fileCache = twin.fileCache) (keys : after.keyCache = twin.keyCache) :
    Cached signingKeyPath files after := by
  refine ⟨fun entry member => cached.paths entry (paths ▸ member), fun entry member => ?_⟩
  obtain ⟨pem, counts, parsed⟩ := Option.bind_eq_some_iff.mp (cached.keys entry (keys ▸ member))
  rw [← same, truth_stays signingKeyPath files call task counts]
  exact parsed

theorem Kept.moves {next : Task κ π ρ} {twin : Twin κ π ρ} (cached : Cached signingKeyPath files twin)
    (carries : Carries signingKeyPath files twin next) :
    Kept signingKeyPath files (.continues next, twin) where
  cached := cached
  carries other goes := by
    cases goes
    exact carries
  keys keys goes := by cases goes

theorem Kept.fails {failure : KeyFailure} {twin : Twin κ π ρ} (cached : Cached signingKeyPath files twin) :
    Kept signingKeyPath files (.ends (.failed failure), twin) where
  cached := cached
  carries other goes := by cases goes
  keys keys goes := by cases goes

theorem Kept.finishes {twin : Twin κ π ρ} (cached : Cached signingKeyPath files twin) :
    Kept signingKeyPath files (.ends .done, twin) where
  cached := cached
  carries other goes := by cases goes
  keys keys goes := by cases goes

theorem Kept.answers {keys : SigningKeys κ π} {twin : Twin κ π ρ} (cached : Cached signingKeyPath files twin)
    (counts : (truth signingKeyPath files twin).bind parsePem = some keys) :
    Kept signingKeyPath files (.ends (.keys keys), twin) where
  cached := cached
  carries other goes := by cases goes
  keys other goes := by
    cases goes
    exact counts

/-- **What one call does.** -/
theorem run_spec (call : Call) (task : Task κ π ρ) {twin : Twin κ π ρ}
    (cached : Cached signingKeyPath files twin) (carries : Carries signingKeyPath files twin task) :
    Kept signingKeyPath files (run files call task twin) := by
  have stays : ∀ {after : Twin κ π ρ}, (run files call task twin).2 = after →
      after.fileCache = twin.fileCache → after.keyCache = twin.keyCache →
      Cached signingKeyPath files after :=
    fun same paths keys => cached_stays signingKeyPath files call task cached same paths keys
  cases task with
  | lookFile path =>
    simp only [run]
    split
    · rename_i pem found
      have entry := cached.paths (path, pem) (mem_of_lookup found)
      refine .moves _ _ cached ?_
      show truth signingKeyPath files twin = some pem
      unfold truth
      rw [carries]
      exact entry
    · exact .moves _ _ cached carries
  | readFile path =>
    simp only [run]
    split
    · rename_i pem found
      split
      · exact .fails _ _ cached
      · exact .moves _ _ cached ⟨carries, found⟩
    · exact .fails _ _ cached
  | keepFile path pem =>
    have counts : truth signingKeyPath files twin = some pem := by
      unfold truth
      rw [carries.1]
      exact carries.2
    refine .moves _ _ ⟨fun entry member => ?_, cached.keys⟩ counts
    rcases List.mem_cons.mp member with rfl | old
    · exact carries.2
    · exact cached.paths entry old
  | readMeta =>
    simp only [run]
    split
    · exact .fails _ _ cached
    · split
      · rename_i pem found
        refine .moves _ _ cached ?_
        show truth signingKeyPath files twin = some pem
        unfold truth
        rw [carries]
        exact found
      · exact .moves _ _ cached carries
  | generate =>
    simp only [run]
    split
    · exact .fails _ _ cached
    · exact .moves _ _ cached carries
  | firstWriter generated =>
    have after : ∀ database, truth signingKeyPath files ({ twin with database } : Twin κ π ρ) =
        metaGet database metaKey := by
      intro database
      unfold truth
      rw [carries]
    cases fails : call.fails with
    | true =>
      simp only [run, fails, if_true]
      exact .fails _ _ cached
    | false =>
      cases found : metaGet twin.database metaKey with
      | some existing =>
        simp only [run, fails, found, Bool.false_eq_true, if_false]
        exact .moves _ _ cached ((after twin.database).trans found)
      | none =>
        have ran : run files call (.firstWriter generated) twin = (.continues (.lookKeys generated),
            { twin with database := metaSet twin.database metaKey generated }) := by
          simp only [run, fails, found, Bool.false_eq_true, if_false]
        rw [ran]
        exact .moves _ _ (stays (by rw [ran]) rfl rfl) ((after _).trans (metaGet_metaSet generated found))
  | lookKeys pem =>
    simp only [run]
    split
    · rename_i keys found
      exact .answers _ _ cached (cached.keys _ (mem_of_lookup found))
    · split
      · exact .fails _ _ cached
      · rename_i parsed isParsed
        exact .moves _ _ cached ⟨carries, isParsed⟩
  | keepKeys pem parsed =>
    have counts : (truth signingKeyPath files twin).bind parsePem = some parsed := by
      rw [carries.1]
      exact carries.2
    refine .answers _ _ ⟨cached.paths, fun entry member => ?_⟩ counts
    rcases List.mem_cons.mp member with rfl | old
    · exact counts
    · exact cached.keys entry old
  | reset prefixes => exact .finishes _ _ (stays rfl rfl rfl)
  | other service => exact .finishes _ _ (stays rfl rfl rfl)

theorem first_carries (request : Request ρ) (twin : Twin κ π ρ) :
    Carries signingKeyPath files twin (first signingKeyPath request) := by
  cases request with
  | keys =>
    cases configured : signingKeyPath with
    | some path => exact rfl
    | none => exact rfl
  | reset prefixes => trivial
  | other service => trivial

/-- A history of the server: requests of clients, whose calls come in any order. -/
abbrev Served (twin : Twin κ π ρ)
    (history : List (Event (System (Twin κ π ρ) (Option (Task κ π ρ))) (Nat × Turn Call (Request ρ))
      (Option (Reply κ π))))
    (final : System (Twin κ π ρ) (Option (Task κ π ρ))) : Prop :=
  Run (System.step (advance (first signingKeyPath) (run files))) ⟨twin, fun _ => none⟩ history final

variable {signingKeyPath files} {twin : Twin κ π ρ} {final : System (Twin κ π ρ) (Option (Task κ π ρ))}
  {history : List (Event (System (Twin κ π ρ) (Option (Task κ π ρ))) (Nat × Turn Call (Request ρ))
    (Option (Reply κ π)))}

/-- A key that counts, counts to the end of a run. -/
theorem truth_lasts {start : System (Twin κ π ρ) (Option (Task κ π ρ))}
    (ran : Run (System.step (advance (first signingKeyPath) (run files))) start history final) {pem : String}
    (counts : truth signingKeyPath files start.shared = some pem) :
    truth signingKeyPath files final.shared = some pem := by
  refine @Run.invariant _ _ _ _ _ _ _ (fun system => truth signingKeyPath files system.shared = some pem) ran
    counts fun event taken before => ?_
  rw [(task_taken taken).1]
  exact truth_stays signingKeyPath files _ _ before

/-- **Keys that are handed out are those that count**, at the end of every run. -/
theorem keys_are_the_truth (ran : Served signingKeyPath files twin history final)
    (cached : Cached signingKeyPath files twin) {keys : SigningKeys κ π}
    {event : Event (System (Twin κ π ρ) (Option (Task κ π ρ))) (Nat × Turn Call (Request ρ))
      (Option (Reply κ π))} (member : event ∈ history) (replied : event.output = some (.keys keys)) :
    (truth signingKeyPath files final.shared).bind parsePem = some keys := by
  have along := (tasks_invariant (Cached signingKeyPath files) (Carries signingKeyPath files) ran
    ⟨cached, fun _ _ held => by cases held⟩
    (fun event _ _ => first_carries signingKeyPath files event.input.2.request event.before.shared)
    fun event _ taken inv own => by
      have kept := run_spec signingKeyPath files event.input.2.call _ inv own
      rw [(task_taken taken).1]
      exact ⟨kept.cached, kept.carries, fun _ other _ _ carries =>
        carries_stays signingKeyPath files _ _ other carries⟩).2 event member
  obtain ⟨past, rest, rfl⟩ := List.append_of_mem member
  obtain ⟨_, taken, after⟩ := ran.around
  obtain ⟨shared, step⟩ := task_taken taken
  have kept := run_spec signingKeyPath files event.input.2.call _ along.1 along.2.1
  split at step
  · rw [step.1] at replied
    cases replied
  · rename_i result ends
    rw [step.1] at replied
    obtain rfl := Option.some.inj replied
    obtain ⟨pem, counts, parsed⟩ := Option.bind_eq_some_iff.mp (kept.keys keys ends)
    rw [← shared] at counts
    rw [truth_lasts after counts]
    exact parsed

theorem started_cached (database : Control.Database (StoredRow ρ)) :
    Cached signingKeyPath files (started database : Twin κ π ρ) :=
  ⟨fun _ member => absurd member List.not_mem_nil, fun _ member => absurd member List.not_mem_nil⟩

/-- **What one request signs every other accepts.** However the calls of the requests interleave, with
key generations, resets and failures between them, and also after a restart on the same database: all
requests get the same keys, each accepts the tokens that the others sign, and none accepts a text that
these keys do not sign. -/
theorem tokens_accepted [External] (laws : RsaLaws κ π) {database : Control.Database (StoredRow ρ)}
    {later : List (Event (System (Twin κ π ρ) (Option (Task κ π ρ))) (Nat × Turn Call (Request ρ))
      (Option (Reply κ π)))} {last : System (Twin κ π ρ) (Option (Task κ π ρ))}
    (ran : Served signingKeyPath files (started database) history final)
    (again : Served signingKeyPath files (started final.shared.database) later last) :
    ∀ one ∈ history ++ later, ∀ two ∈ history ++ later, ∀ keys keys' : SigningKeys κ π,
      one.output = some (.keys keys) → two.output = some (.keys keys') → keys = keys' ∧
        (∀ claims, (∀ value ∈ [keys.header, claims],
          External.jsonFromStr (External.jsonToString value) = some value) →
            keys'.verify (keys.sign claims) = some claims) ∧
          ∀ token claims, keys'.verify token = some claims → ∃ header payload,
            fromSlice payload = some claims ∧ token = keys.compact header payload := by
  have counts : ∀ event ∈ history ++ later, ∀ keys : SigningKeys κ π, event.output = some (.keys keys) →
      (truth signingKeyPath files last.shared).bind parsePem = some keys := by
    intro event member keys replied
    rcases List.mem_append.mp member with early | late
    · obtain ⟨pem, known, parsed⟩ := Option.bind_eq_some_iff.mp
        (keys_are_the_truth ran (started_cached database) early replied)
      -- a process that starts on the database sees the key that counted
      have restarted : truth signingKeyPath files (started final.shared.database : Twin κ π ρ) = some pem := by
        unfold truth at known ⊢
        exact known
      rw [truth_lasts again restarted]
      exact parsed
    · exact keys_are_the_truth again (started_cached _) late replied
  intro one first two second keys keys' signs verifies
  obtain rfl := Option.some.inj ((counts one first keys signs).symm.trans (counts two second keys' verifies))
  refine ⟨rfl, fun claims written => verify_sign laws keys written, fun token claims accepted => ?_⟩
  obtain ⟨header, payload, _, _, _, claimed, same⟩ := (verify_iff laws keys token claims).mp accepted
  exact ⟨header, payload, claimed, same⟩

end Server

/-! ### A sample -/

/-- Keys that are their PEM texts; a signature is the key before the message. -/
@[reducible]
def Rsa.sample : Rsa String String where
  fromPkcs8Pem := some
  fromPkcs1Pem _ := none
  toPublicKey := id
  modulus key := utf8 key
  exponent _ := [1, 0, 1]
  sign key message := utf8 key ++ message
  verify key message signature := signature == utf8 key ++ message
  digest := id

/-- A crate that knows two texts. -/
@[reducible]
def External.tokens : External :=
  { External.sample with
    jsonToString := fun value =>
      match (value.get "kid").bind Json.asStr with
      | some kid => "\x7b\"alg\":\"RS256\",\"kid\":\"" ++ kid ++ "\"\x7d"
      | none => "\x7b\"sub\":\"ann\"\x7d"
    jsonFromStr := fun text =>
      if text = "\x7b\"sub\":\"ann\"\x7d" then some (.obj [("sub", .str "ann")])
      else if text = "\x7b\"alg\":\"RS256\",\"kid\":\"a2V5IDEBAAE=\"\x7d" then
        some (.obj [("alg", .str "RS256"), ("kid", .str "a2V5IDEBAAE=")])
      else none }

section Sample

attribute [local instance] Rsa.sample External.tokens

theorem sample_unique : RsaLaws String String where
  unique _ _ _ := beq_iff_eq

def emptyTables : Control.Database (StoredRow Unit) where
  rows _ := []
  sequence _ := 0

/-- Two clients generate a key each, and the second writes first; a reset comes between. -/
def raceTurns : List (Nat × Turn Call (Request Unit)) :=
  [(0, ⟨⟨false, ""⟩, .keys⟩), (1, ⟨⟨false, ""⟩, .keys⟩), (0, ⟨⟨false, "key 0"⟩, .keys⟩),
    (1, ⟨⟨false, "key 1"⟩, .keys⟩), (1, ⟨⟨false, ""⟩, .keys⟩), (2, ⟨⟨false, ""⟩, .reset ["cognito_"]⟩),
    (0, ⟨⟨false, ""⟩, .keys⟩), (0, ⟨⟨false, ""⟩, .keys⟩), (0, ⟨⟨false, ""⟩, .keys⟩)]

/-- After the restart a client finds the key. -/
def restartTurns : List (Nat × Turn Call (Request Unit)) :=
  [(0, ⟨⟨false, ""⟩, .keys⟩), (0, ⟨⟨false, ""⟩, .keys⟩), (0, ⟨⟨false, ""⟩, .keys⟩)]

def sampleKeys : SigningKeys String String where
  signer := "key 1"
  verifier := "key 1"
  kid := "a2V5IDEBAAE="
  n := "a2V5IDE"
  e := "AQAB"
  pair := rfl

def raceStep : System (Twin String String Unit) (Option (Task String String Unit)) →
    Nat × Turn Call (Request Unit) →
      Option (Reply String String) × System (Twin String String Unit) (Option (Task String String Unit)) :=
  System.step (advance (first none) (run fun _ => none))

theorem tokens_accepted_sample :
    sampleKeys.verify (sampleKeys.sign (.obj [("sub", .str "ann")])) = some (.obj [("sub", .str "ann")]) := by
  have ran := Run.of_trace raceStep raceTurns ⟨started emptyTables, fun _ => none⟩
  have again := Run.of_trace raceStep restartTurns
    ⟨started (Run.final raceStep ⟨started emptyTables, fun _ => none⟩ raceTurns).shared.database, fun _ => none⟩
  have raced : ((Run.trace raceStep ⟨started emptyTables, fun _ => none⟩ raceTurns).map
      Event.output).getLast? = some (some (.keys sampleKeys)) := by rfl
  have reread : ((Run.trace raceStep ⟨started (Run.final raceStep ⟨started emptyTables, fun _ => none⟩
      raceTurns).shared.database, fun _ => none⟩ restartTurns).map Event.output).getLast? =
        some (some (.keys sampleKeys)) := by rfl
  obtain ⟨one, early, signs⟩ := List.mem_map.mp (List.mem_of_getLast? raced)
  obtain ⟨two, late, verifies⟩ := List.mem_map.mp (List.mem_of_getLast? reread)
  refine (tokens_accepted sample_unique ran again one (List.mem_append_left _ early) two
    (List.mem_append_right _ late) sampleKeys sampleKeys signs verifies).2.1 _ fun value member => ?_
  rcases List.mem_cons.mp member with rfl | other
  · rfl
  · rw [List.mem_singleton.mp other]
    rfl

end Sample

end CloudTwin.Cognito.Signing
