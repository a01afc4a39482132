/-
**What the services take from crates outside the repository.**

`External` collects the functions of third-party crates that the services call and whose results
they only pass on, compare or store: the JSON text of a value and back (`serde_json`), digests
(`md-5`, `sha2`), the test whether a text is a floating-point number, and the stream of
`Uuid::new_v4()` values. A model of a service takes one `External` as a parameter.

`UuidLaws` is what the services rely on about the stream: no value twice, and no `|` in a value
(a UUID is hexadecimal digits and hyphens).
-/

import CloudTwin.Lib.Text

namespace CloudTwin

/-- `serde_json::Value`. An object keeps its members in key order; a number that is not an integer
is kept as its text. -/
inductive Json where
  | null
  | bool (value : Bool)
  | num (value : Int)
  | float (text : String)
  | str (text : String)
  | arr (items : List Json)
  | obj (members : List (String × Json))

namespace Json

/-- `Value::get` with a string index. -/
def get (value : Json) (name : String) : Option Json :=
  match value with
  | .obj members => members.lookup name
  | _ => none

/-- `Value::as_str`. -/
def asStr : Json → Option String
  | .str text => some text
  | _ => none

/-- `Value::as_i64`. -/
def asI64 : Json → Option Int
  | .num value => if -(2 ^ 63) ≤ value ∧ value < 2 ^ 63 then some value else none
  | _ => none

end Json

/-- **Functions of crates outside the repository.** -/
class External where
  /-- `serde_json::from_str::<Value>`. -/
  jsonFromStr : String → Option Json
  /-- `Value::to_string`. -/
  jsonToString : Json → String
  /-- `hex::encode(Sha256::digest(..))`. -/
  sha256Hex : List UInt8 → String
  /-- The hexadecimal MD5 digest. -/
  md5Hex : List UInt8 → String
  /-- `str::parse::<f64>().is_ok()`. -/
  parsesF64 : String → Bool
  /-- The `n`-th value of `Uuid::new_v4()`, hyphenated. -/
  uuid : Nat → String

/-- **What the services rely on about `Uuid::new_v4()`.** -/
structure UuidLaws (external : External) : Prop where
  fresh : Function.Injective external.uuid
  noBar : ∀ n, '|' ∉ (external.uuid n).toList

/-! ### An instance -/

/-- Crates that know one text: the digests of `hello`, no JSON, and UUIDs in counting order. -/
@[reducible]
def External.sample : External where
  jsonFromStr _ := none
  jsonToString _ := "null"
  sha256Hex bytes :=
    if bytes = Lib.Text.utf8 "hello" then
      "2cf24dba5fb0a30e26e83b2ac5b9e29e1b161e5c1fa7425e73043362938b9824"
    else ""
  md5Hex bytes := if bytes = Lib.Text.utf8 "hello" then "5d41402abc4b2a76b9719d911017c592" else ""
  parsesF64 _ := false
  uuid draw := "00000000-0000-4000-8000-" ++ Lib.Text.decimal 12 draw

theorem sample_laws : UuidLaws External.sample where
  fresh := by
    intro first second same
    apply Lib.Text.decimal_injective 12
    have lists : ("00000000-0000-4000-8000-" ++ Lib.Text.decimal 12 first).toList =
        ("00000000-0000-4000-8000-" ++ Lib.Text.decimal 12 second).toList :=
      congrArg String.toList same
    rw [String.toList_append, String.toList_append] at lists
    exact String.toList_inj.mp (List.append_cancel_left lists)
  noBar draw := by
    show '|' ∉ ("00000000-0000-4000-8000-" ++ Lib.Text.decimal 12 draw).toList
    rw [String.toList_append, List.mem_append]
    rintro (fixed | digit)
    · exact absurd fixed (by decide)
    · exact absurd (Lib.Text.decimal_isDigit 12 draw _ digit) (by decide)

/-- `Uuid::simple`: the digits without the hyphens. -/
def simpleUuid (uuid : String) : String :=
  String.ofList (uuid.toList.filter (· != '-'))

end CloudTwin
