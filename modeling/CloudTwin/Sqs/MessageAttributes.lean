/-
**Message attributes: storage and digest.**

`SendMessage` stores the JSON of a message's attributes, and a receive parses it again with the
checks of a request, which give up all attributes for one that they do not take. The digest is that
of an encoding which holds, of each attribute, the value of its type.

* `Storable` — every attribute passes the checks of the parser.
* `attrsFromColumn_attrsColumn` — a map is read back as it was stored if and only if it is storable.
* `encoding_iff` — two storable maps have the same encoding if and only if they differ at most in
  values that their types do not use.
-/

import CloudTwin.Sqs.Conservation

namespace CloudTwin.Sqs

open Lib Lib.Text

set_option linter.unusedSectionVars false

section External

variable [External]

/-! ### One attribute -/

/-- An entry that `parse_attrs` takes. -/
def MsgAttr.isValid (name : String) (attr : MsgAttr) : Bool :=
  let base := beforeFirst '.' attr.dataType
  !(name.isEmpty || name.utf8ByteSize > 256) &&
    if base = "String" then attr.stringValue.isSome
    else if base = "Number" then attr.stringValue.any fun text => External.parsesF64 (trim text)
    else base = "Binary" && attr.binaryValue.isSome

theorem standard_decode_encode (bytes : List UInt8) :
    Base64.standardDecode (Base64.standardEncode bytes) = some bytes := by
  have plain : ∀ char ∈ (Base64.encode Base64.standardAlphabet bytes).toList,
      (char != '=') = true := by
    intro char member
    rw [Base64.encode, String.toList_ofList] at member
    obtain ⟨sextet, there, rfl⟩ := List.mem_map.mp member
    have small := Base64.sextetsOf_lt bytes sextet there
    have all : ∀ sextet < 64, (Base64.standardAlphabet.symbol sextet != '=') = true := by decide
    exact all sextet small
  have body : (Base64.standardEncode bytes).toList.takeWhile (· != '=') =
      (Base64.encode Base64.standardAlphabet bytes).toList := by
    rw [Base64.standardEncode, String.toList_ofList, List.takeWhile_append_of_pos plain]
    simp [Base64.padding]
  unfold Base64.standardDecode
  simp only
  rw [body, if_pos (by rw [Base64.standardEncode, String.toList_ofList]), String.ofList_toList]
  exact Base64.decode_encode _ bytes

theorem toJson_dataType (attr : MsgAttr) :
    (attr.toJson.get "DataType").bind Json.asStr = some attr.dataType := by
  cases binary : attr.binaryValue with
  | none => simp [MsgAttr.toJson, Json.get, Json.asStr, binary]
  | some bytes => simp [MsgAttr.toJson, Json.get, Json.asStr, binary, List.lookup_cons]

theorem toJson_stringValue (attr : MsgAttr) :
    (attr.toJson.get "StringValue").bind Json.asStr = attr.stringValue := by
  rcases attr with ⟨dataType, text, bytes⟩
  cases bytes with
  | none =>
    cases text with
    | none => rfl
    | some text => rfl
  | some bytes =>
    cases text with
    | none => rfl
    | some text => rfl

theorem toJson_binaryValue (attr : MsgAttr) :
    (attr.toJson.get "BinaryValue").bind Json.asStr =
      attr.binaryValue.map Base64.standardEncode := by
  rcases attr with ⟨dataType, text, bytes⟩
  cases bytes with
  | none =>
    cases text with
    | none => rfl
    | some text => rfl
  | some bytes => rfl

theorem parseAttr_toJson (name : String) (attr : MsgAttr) :
    if attr.isValid name then parseAttr name attr.toJson = .ok attr
    else ∃ error, parseAttr name attr.toJson = .error error := by
  unfold parseAttr MsgAttr.isValid
  rw [toJson_dataType, toJson_stringValue, toJson_binaryValue]
  have decoded := standard_decode_encode
  rcases attr with ⟨dataType, text, bytes⟩
  by_cases named : (name.isEmpty || decide (name.utf8ByteSize > 256)) = true
  · simp [named]
    exact ⟨_, rfl⟩
  · rw [Bool.not_eq_true] at named
    simp only [named, Bool.not_false, Bool.true_and]
    generalize beforeFirst '.' dataType = base
    by_cases string : base = "String"
    · subst string
      cases text with
      | none => cases bytes <;> simp [decoded] <;> exact ⟨_, rfl⟩
      | some text => cases bytes <;> simp [decoded] <;> rfl
    · by_cases number : base = "Number"
      · subst number
        cases text with
        | none => cases bytes <;> simp [decoded] <;> exact ⟨_, rfl⟩
        | some text =>
          by_cases parses : External.parsesF64 (trim text) = true
          · cases bytes <;> simp [decoded, parses] <;> rfl
          · cases bytes <;> simp [decoded, parses] <;> exact ⟨_, rfl⟩
      · by_cases binary : base = "Binary"
        · subst binary
          cases bytes with
          | none => exact ⟨_, rfl⟩
          | some bytes => simp [decoded]; rfl
        · cases bytes <;> simp [decoded, string, number, binary] <;> exact ⟨_, rfl⟩

theorem parseAttr_valid {name : String} {value : Json} {attr : MsgAttr}
    (parsed : parseAttr name value = .ok attr) : attr.isValid name = true := by
  -- the value is read as the JSON of some attribute is
  obtain ⟨read, same⟩ : ∃ read : MsgAttr, parseAttr name value = parseAttr name read.toJson := by
    cases typed : (value.get "DataType").bind Json.asStr with
    | none =>
      unfold parseAttr at parsed
      rw [typed] at parsed
      by_cases named : (name.isEmpty || decide (name.utf8ByteSize > 256)) = true
      · rw [if_pos named] at parsed
        cases parsed
      · rw [if_neg named] at parsed
        cases parsed
    | some dataType =>
      cases given : (value.get "BinaryValue").bind Json.asStr with
      | none =>
        refine ⟨⟨dataType, (value.get "StringValue").bind Json.asStr, none⟩, ?_⟩
        unfold parseAttr
        rw [toJson_dataType, toJson_stringValue, toJson_binaryValue, typed, given]
        rfl
      | some text =>
        cases decoded : Base64.standardDecode text with
        | none =>
          unfold parseAttr at parsed
          rw [typed, given] at parsed
          simp only [decoded] at parsed
          by_cases named : (name.isEmpty || decide (name.utf8ByteSize > 256)) = true
          · rw [if_pos named] at parsed
            cases parsed
          · rw [if_neg named] at parsed
            cases parsed
        | some bytes =>
          refine ⟨⟨dataType, (value.get "StringValue").bind Json.asStr, some bytes⟩, ?_⟩
          unfold parseAttr
          rw [toJson_dataType, toJson_stringValue, toJson_binaryValue, typed, given]
          simp only [decoded, Option.map_some, standard_decode_encode]
  have written := parseAttr_toJson name read
  rw [← same, parsed] at written
  by_cases valid : read.isValid name = true
  · rw [if_pos valid] at written
    injection written with written
    rw [written]
    exact valid
  · rw [if_neg valid] at written
    obtain ⟨_, failed⟩ := written
    cases failed

/-! ### Maps -/

/-- **Every attribute is one that `parse_attrs` takes.** -/
def Storable (attrs : MsgAttrs) : Prop :=
  ∀ (name : String) (attr : MsgAttr), attrs[name]? = some attr → attr.isValid name = true

theorem parseMembers_storable (members : List (String × Json)) :
    ∀ start attrs, Storable start → parseMembers members start = .ok attrs → Storable attrs := by
  induction members with
  | nil =>
    intro start attrs storable parsed
    cases parsed
    exact storable
  | cons member rest ih =>
    intro start attrs storable parsed
    obtain ⟨key, value⟩ := member
    cases first : parseAttr key value with
    | error error =>
      rw [parseMembers, first] at parsed
      cases parsed
    | ok attr =>
      rw [parseMembers, first] at parsed
      refine ih _ _ (fun name found there => ?_) parsed
      rw [getElem_insert] at there
      by_cases same : key = name
      · rw [if_pos same] at there
        cases there
        exact same ▸ parseAttr_valid first
      · rw [if_neg same] at there
        exact storable name found there

/-- What `SendMessage` accepts is storable. -/
theorem parseAttrs_storable {value : Option Json} {attrs : MsgAttrs}
    (parsed : parseAttrs value = .ok attrs) : Storable attrs := by
  have nothing : Storable ∅ := fun name attr found => by simp at found
  unfold parseAttrs at parsed
  split at parsed
  · cases parsed
    exact nothing
  · cases parsed
    exact nothing
  · exact parseMembers_storable _ _ _ nothing parsed
  · cases parsed

theorem parseMembers_toJson (entries : List (String × MsgAttr)) : ∀ start : MsgAttrs,
    if ∀ entry ∈ entries, entry.2.isValid entry.1 = true then
      parseMembers (entries.map fun entry => (entry.1, entry.2.toJson)) start =
        .ok (entries.foldl (fun attrs entry => attrs.insert entry.1 entry.2) start)
    else ∃ error, parseMembers (entries.map fun entry => (entry.1, entry.2.toJson)) start =
      .error error := by
  induction entries with
  | nil => exact fun start => by simp [parseMembers]
  | cons entry rest ih =>
    intro start
    have first := parseAttr_toJson entry.1 entry.2
    by_cases valid : entry.2.isValid entry.1 = true
    · rw [if_pos valid] at first
      have whole : parseMembers ((entry :: rest).map fun entry => (entry.1, entry.2.toJson)) start =
          parseMembers (rest.map fun entry => (entry.1, entry.2.toJson))
            (start.insert entry.1 entry.2) := by
        rw [List.map_cons, parseMembers, first]
        rfl
      rw [whole]
      simp only [List.forall_mem_cons, valid, true_and]
      exact ih (start.insert entry.1 entry.2)
    · rw [if_neg valid] at first
      obtain ⟨error, failed⟩ := first
      rw [if_neg fun all => valid (all entry List.mem_cons_self)]
      exact ⟨error, by rw [List.map_cons, parseMembers, failed]; rfl⟩

theorem foldl_insert_get (entries : List (String × MsgAttr)) (name : String) :
    ∀ start : MsgAttrs, (entries.Pairwise fun first second => first.1 ≠ second.1) →
      (entries.foldl (fun attrs entry => attrs.insert entry.1 entry.2) start)[name]? =
        (entries.lookup name).or start[name]? := by
  induction entries with
  | nil => exact fun _ _ => rfl
  | cons entry rest ih =>
    intro start distinct
    obtain ⟨other, value⟩ := entry
    obtain ⟨apart, distinctRest⟩ := List.pairwise_cons.mp distinct
    rw [List.foldl_cons, ih _ distinctRest, List.lookup_cons, getElem_insert]
    by_cases same : name = other
    · subst same
      have absent : rest.lookup name = none := by
        rw [List.lookup_eq_none_iff]
        exact fun found member => bne_iff_ne.mpr (apart _ member)
      simp [absent]
    · simp [beq_eq_false_iff_ne.mpr same, Ne.symm same]

/-- **What is read back of a stored map**: the map if it is storable, nothing otherwise. -/
theorem attrsFromColumn_attrsColumn (attrs : MsgAttrs) :
    attrsFromColumn (attrsColumn attrs) = attrs ↔ Storable attrs := by
  by_cases empty : attrs.isEmpty = true
  · have nothing : attrs = ∅ := Std.ExtTreeMap.isEmpty_iff.mp empty
    subst nothing
    simp [attrsColumn, attrsFromColumn, parseAttrs, Storable]
  · rw [attrsColumn, if_neg empty, attrsFromColumn]
    have reads : parseAttrs (some (attrsToJson attrs)) =
        parseMembers (attrs.toList.map fun entry => (entry.1, entry.2.toJson)) ∅ := rfl
    rw [reads]
    have members : (∀ entry ∈ attrs.toList, entry.2.isValid entry.1 = true) ↔ Storable attrs :=
      ⟨fun all name attr found => all (name, attr)
        (Std.ExtTreeMap.mem_toList_iff_getElem?_eq_some.mpr found),
      fun storable entry member => storable entry.1 entry.2
        (Std.ExtTreeMap.mem_toList_iff_getElem?_eq_some.mp member)⟩
    have parsed := parseMembers_toJson attrs.toList ∅
    by_cases storable : Storable attrs
    · rw [if_pos (members.mpr storable)] at parsed
      rw [parsed]
      refine ⟨fun _ => storable, fun _ => Std.ExtTreeMap.ext_getElem? fun name => ?_⟩
      rw [foldl_insert_get _ _ _ (toList_distinct attrs), toList_lookup]
      simp
    · rw [if_neg fun all => storable (members.mp all)] at parsed
      obtain ⟨error, failed⟩ := parsed
      rw [failed]
      refine ⟨fun nothing => ?_, fun all => absurd all storable⟩
      rw [← nothing] at empty
      exact absurd (by simp) empty

/-! ### The digest -/

/-- What the digest is taken of, for one attribute. -/
def attrEncoding (entry : String × MsgAttr) : List UInt8 :=
  lengthPrefixed (utf8 entry.1) ++ lengthPrefixed (utf8 entry.2.dataType) ++
    [if entry.2.isBinary then 2 else 1] ++ lengthPrefixed entry.2.valueBytes

/-- What the digest is taken of. -/
def attrsEncoding (attrs : MsgAttrs) : List UInt8 :=
  attrs.toList.flatMap attrEncoding

theorem md5OfAttrs_eq (attrs : MsgAttrs) :
    md5OfAttrs attrs = External.md5Hex (attrsEncoding attrs) := rfl

theorem ofNat_small {first second : Nat} (one : first < 256) (two : second < 256)
    (same : UInt8.ofNat first = UInt8.ofNat second) : first = second := by
  have values := congrArg UInt8.toNat same
  rwa [UInt8.toNat_ofNat_of_lt' (by simpa using one),
    UInt8.toNat_ofNat_of_lt' (by simpa using two)] at values

theorem lengthPrefixed_append {bytes other rest tail : List UInt8} (small : bytes.length < 2 ^ 32)
    (smallToo : other.length < 2 ^ 32)
    (same : lengthPrefixed bytes ++ rest = lengthPrefixed other ++ tail) :
    bytes = other ∧ rest = tail := by
  unfold lengthPrefixed at same
  simp only [List.cons_append, List.nil_append, List.cons.injEq] at same
  obtain ⟨first, second, third, fourth, body⟩ := same
  rw [Nat.mod_eq_of_lt small, Nat.mod_eq_of_lt smallToo] at first second third fourth
  have top := ofNat_small (by omega) (by omega) first
  have upper := ofNat_small (by omega) (by omega) second
  have lower := ofNat_small (by omega) (by omega) third
  have low := ofNat_small (by omega) (by omega) fourth
  exact List.append_inj body (by omega)

/-- No part of the attribute is too long for its length to be written. -/
def SmallEntry (entry : String × MsgAttr) : Prop :=
  (utf8 entry.1).length < 2 ^ 32 ∧ (utf8 entry.2.dataType).length < 2 ^ 32 ∧
    entry.2.valueBytes.length < 2 ^ 32

theorem attrEncoding_append {entry other : String × MsgAttr} {rest tail : List UInt8}
    (small : SmallEntry entry) (smallToo : SmallEntry other)
    (same : attrEncoding entry ++ rest = attrEncoding other ++ tail) :
    (entry.1 = other.1 ∧ entry.2.dataType = other.2.dataType ∧
      entry.2.valueBytes = other.2.valueBytes) ∧ rest = tail := by
  simp only [attrEncoding, List.append_assoc] at same
  obtain ⟨names, same⟩ := lengthPrefixed_append small.1 smallToo.1 same
  obtain ⟨types, same⟩ := lengthPrefixed_append small.2.1 smallToo.2.1 same
  obtain ⟨_, same⟩ := List.cons.inj same
  obtain ⟨values, same⟩ := lengthPrefixed_append small.2.2 smallToo.2.2 same
  exact ⟨⟨utf8_injective names, utf8_injective types, values⟩, same⟩

/-- The attribute without the value that its type does not use. -/
def MsgAttr.used (attr : MsgAttr) : MsgAttr :=
  if attr.isBinary then { attr with stringValue := none } else { attr with binaryValue := none }

theorem startsWith_iff {text start : String} :
    startsWith text start = true ↔ start.toList <+: text.toList :=
  List.isPrefixOf_iff_prefix

theorem beforeFirst_prefix (char : Char) (text : String) :
    (beforeFirst char text).toList <+: text.toList := by
  rw [beforeFirst, String.toList_ofList]
  exact List.takeWhile_prefix _

/-- A type with another base is not binary. -/
theorem isBinary_of_base {attr : MsgAttr} {base : String}
    (based : beforeFirst '.' attr.dataType = base) (long : base.toList.length = 6)
    (other : base ≠ "Binary") : attr.isBinary = false := by
  rw [MsgAttr.isBinary, ← Bool.not_eq_true, startsWith_iff]
  intro binary
  have start := beforeFirst_prefix '.' attr.dataType
  rw [based] at start
  have inside := List.prefix_of_prefix_length_le start binary (Nat.le_of_eq long)
  exact other (String.toList_inj.mp (inside.eq_of_length long))

/-- **The value that a valid attribute uses.** -/
theorem MsgAttr.isValid_value {name : String} {attr : MsgAttr} (valid : attr.isValid name = true) :
    (attr.isBinary = true ∧ attr.used = ⟨attr.dataType, none, some attr.valueBytes⟩) ∨
    (attr.isBinary = false ∧ ∃ text, attr.used = ⟨attr.dataType, some text, none⟩ ∧
      attr.valueBytes = utf8 text) := by
  have text : attr.isBinary = false → attr.stringValue.isSome = true →
      ∃ text, attr.used = ⟨attr.dataType, some text, none⟩ ∧ attr.valueBytes = utf8 text := by
    intro plain given
    obtain ⟨text, found⟩ := Option.isSome_iff_exists.mp given
    exact ⟨text, by simp [MsgAttr.used, plain, found], by simp [MsgAttr.valueBytes, plain, found]⟩
  unfold MsgAttr.isValid at valid
  simp only [Bool.and_eq_true] at valid
  obtain ⟨_, valid⟩ := valid
  by_cases string : beforeFirst '.' attr.dataType = "String"
  · rw [if_pos string] at valid
    have plain := isBinary_of_base string (by decide) (by decide)
    exact Or.inr ⟨plain, text plain valid⟩
  · rw [if_neg string] at valid
    by_cases number : beforeFirst '.' attr.dataType = "Number"
    · rw [if_pos number] at valid
      have plain := isBinary_of_base number (by decide) (by decide)
      have given : attr.stringValue.isSome = true := by
        cases found : attr.stringValue with
        | none => rw [found] at valid; cases valid
        | some value => rfl
      exact Or.inr ⟨plain, text plain given⟩
    · rw [if_neg number] at valid
      simp only [Bool.and_eq_true, decide_eq_true_eq] at valid
      obtain ⟨base, given⟩ := valid
      have binary : attr.isBinary = true := by
        rw [MsgAttr.isBinary, startsWith_iff, ← base]
        exact beforeFirst_prefix '.' attr.dataType
      obtain ⟨bytes, found⟩ := Option.isSome_iff_exists.mp given
      exact Or.inl ⟨binary, by simp [MsgAttr.used, MsgAttr.valueBytes, binary, found]⟩

theorem used_eq_iff {name : String} {attr other : MsgAttr} (valid : attr.isValid name = true)
    (validToo : other.isValid name = true) :
    attr.used = other.used ↔
      attr.dataType = other.dataType ∧ attr.valueBytes = other.valueBytes := by
  have same : attr.dataType = other.dataType → attr.isBinary = other.isBinary := fun types => by
    rw [MsgAttr.isBinary, MsgAttr.isBinary, types]
  rcases attr.isValid_value valid with ⟨binary, used⟩ | ⟨plain, text, used, bytes⟩
  · rcases other.isValid_value validToo with ⟨_, usedToo⟩ | ⟨plainToo, text, usedToo, _⟩
    · rw [used, usedToo]
      simp
    · rw [used, usedToo]
      refine ⟨fun equal => absurd equal (by simp), fun equal => ?_⟩
      rw [same equal.1, plainToo] at binary
      cases binary
  · rcases other.isValid_value validToo with ⟨binaryToo, usedToo⟩ | ⟨_, textToo, usedToo, bytesToo⟩
    · rw [used, usedToo]
      refine ⟨fun equal => absurd equal (by simp), fun equal => ?_⟩
      rw [same equal.1, binaryToo] at plain
      cases plain
    · rw [used, usedToo, bytes, bytesToo]
      simp [utf8_injective.eq_iff]

/-- The map without the values that the types do not use. -/
def usedEntries (attrs : MsgAttrs) : List (String × MsgAttr) :=
  attrs.toList.map fun entry => (entry.1, entry.2.used)

theorem flatMap_encoding_iff (entries : List (String × MsgAttr)) :
    ∀ others : List (String × MsgAttr), (∀ entry ∈ entries, SmallEntry entry) →
      (∀ entry ∈ others, SmallEntry entry) →
      (∀ entry ∈ entries, entry.2.isValid entry.1 = true) →
      (∀ entry ∈ others, entry.2.isValid entry.1 = true) →
      (entries.flatMap attrEncoding = others.flatMap attrEncoding ↔
        (entries.map fun entry => (entry.1, entry.2.used)) =
          others.map fun entry => (entry.1, entry.2.used)) := by
  have some : ∀ entry rest, (attrEncoding entry ++ rest : List UInt8) ≠ [] := fun entry rest => by
    simp [attrEncoding, lengthPrefixed]
  induction entries with
  | nil =>
    intro others _ _ _ _
    cases others with
    | nil => simp
    | cons other rest => simp [(some other (rest.flatMap attrEncoding)).symm]
  | cons entry entries ih =>
    intro others small smallToo valid validToo
    cases others with
    | nil => simp [some entry (entries.flatMap attrEncoding)]
    | cons other others =>
      have first := valid entry List.mem_cons_self
      have firstToo := validToo other List.mem_cons_self
      have rest := ih others (fun entry member => small entry (List.mem_cons_of_mem _ member))
        (fun entry member => smallToo entry (List.mem_cons_of_mem _ member))
        (fun entry member => valid entry (List.mem_cons_of_mem _ member))
        fun entry member => validToo entry (List.mem_cons_of_mem _ member)
      rw [List.flatMap_cons, List.flatMap_cons, List.map_cons, List.map_cons, List.cons.injEq,
        Prod.mk.injEq]
      constructor
      · intro same
        obtain ⟨⟨names, types, values⟩, tails⟩ := attrEncoding_append
          (small entry List.mem_cons_self) (smallToo other List.mem_cons_self) same
        rw [← names] at firstToo
        exact ⟨⟨names, (used_eq_iff first firstToo).mpr ⟨types, values⟩⟩, rest.mp tails⟩
      · rintro ⟨⟨names, used⟩, tails⟩
        have restored := firstToo
        rw [← names] at restored
        obtain ⟨types, values⟩ := (used_eq_iff first restored).mp used
        have same : attrEncoding entry = attrEncoding other := by
          unfold attrEncoding MsgAttr.isBinary
          rw [names, types, values]
        rw [same, rest.mpr tails]

/-- **Maps with the same encoding** differ at most in values that their types do not use. -/
theorem encoding_iff {attrs others : MsgAttrs} (storable : Storable attrs)
    (storableToo : Storable others) (small : ∀ entry ∈ attrs.toList, SmallEntry entry)
    (smallToo : ∀ entry ∈ others.toList, SmallEntry entry) :
    attrsEncoding attrs = attrsEncoding others ↔ usedEntries attrs = usedEntries others :=
  flatMap_encoding_iff attrs.toList others.toList small smallToo
    (fun entry member => storable entry.1 entry.2
      (Std.ExtTreeMap.mem_toList_iff_getElem?_eq_some.mp member))
    fun entry member => storableToo entry.1 entry.2
      (Std.ExtTreeMap.mem_toList_iff_getElem?_eq_some.mp member)

end External

end CloudTwin.Sqs
