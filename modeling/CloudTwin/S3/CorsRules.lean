/-
**Cross-origin rules, as a document** (`aws/s3/cors.rs`).

The rules of a bucket are stored as a document and read at every request from another origin. A seed
gives them as JSON; they are checked, written, and read by the requests that follow.

* `validate`, `parseRules`, `rulesFromJson`, `rulesToXml` — the code.
* `CorsRule.trimmed` — what reading does to a rule; `Sound`, the rules that are accepted.
* `ruleOf_node` — a rule that is written is read, trimmed.
* `rules_read_back` — rules that were read are read again, and rules that were seeded are read trimmed.
-/

import CloudTwin.S3.Cors
import CloudTwin.S3.Documents

namespace CloudTwin.S3

open Lib Lib.Text Lib.Xml Proto

/-! ### The code -/

def corsMethods : List String := ["GET", "PUT", "POST", "DELETE", "HEAD"]

def validate (rule : CorsRule) : S3Result Unit :=
  if rule.allowedOrigins.isEmpty ∨ rule.allowedMethods.isEmpty then .error S3Error.malformedXml
  else do
    rule.allowedMethods.forM fun m =>
      if !corsMethods.contains m then
        .error (S3Error.new "InvalidRequest"
          ("Found unsupported HTTP method in CORS config. Unsupported method is " ++ m))
      else .ok ()
    rule.allowedOrigins.forM fun o =>
      if 1 < o.toList.count '*' then
        .error (S3Error.new "InvalidRequest"
          ("AllowedOrigin \"" ++ o ++ "\" can not have more than one wildcard."))
      else .ok ()

/-- The trimmed texts of the children of a name. -/
def childTexts (element : Element) (name : String) : List String :=
  (element.childrenNamed name).map fun child => trim child.text

def ruleOf (r : Element) : S3Result CorsRule := do
  let rule : CorsRule :=
    { id := r.childText "ID"
      allowedOrigins := childTexts r "AllowedOrigin"
      allowedMethods := childTexts r "AllowedMethod"
      allowedHeaders := childTexts r "AllowedHeader"
      exposeHeaders := childTexts r "ExposeHeader"
      maxAge := (r.childText "MaxAgeSeconds").bind parseI64 }
  validate rule
  return rule

/-- Parse and validate a `<CORSConfiguration>` document. -/
def parseRules [Reader] (xml : List UInt8) : S3Result (List CorsRule) := do
  let doc ← parseRoot "CORSConfiguration" xml
  let rules ← (doc.childrenNamed "CORSRule").mapM ruleOf
  if rules.isEmpty then .error S3Error.malformedXml else return rules

/-- The texts under a name, of which there may be one or a list. -/
def textsOf (r : Json) (name : String) : List String :=
  match r.get name with
  | some (.arr items) => items.filterMap Json.asStr
  | some (.str text) => [text]
  | _ => []

def ruleOfJson (r : Json) : S3Result CorsRule := do
  let rule : CorsRule :=
    { id := (r.get "ID").bind Json.asStr
      allowedOrigins := textsOf r "AllowedOrigins"
      allowedMethods := (textsOf r "AllowedMethods").map toAsciiUppercase
      allowedHeaders := textsOf r "AllowedHeaders"
      exposeHeaders := textsOf r "ExposeHeaders"
      maxAge := (r.get "MaxAgeSeconds").bind Json.asI64 }
  validate rule
  return rule

def itemsOf : Json → Option (List Json)
  | .arr items => some items
  | _ => none

/-- Build rules from the boto3-style JSON shape used in seed documents. -/
def rulesFromJson (v : Json) : S3Result (List CorsRule) :=
  (((itemsOf v).or ((v.get "CORSRules").bind itemsOf)).getD []).mapM ruleOfJson

def ruleXml (r : CorsRule) : String :=
  "<CORSRule>" ++ concat (r.id.toList.map (tag "ID")) ++
    concat (r.allowedHeaders.map (tag "AllowedHeader")) ++
    concat (r.allowedMethods.map (tag "AllowedMethod")) ++
    concat (r.allowedOrigins.map (tag "AllowedOrigin")) ++
    concat (r.exposeHeaders.map (tag "ExposeHeader")) ++
    concat (r.maxAge.toList.map fun m => "<MaxAgeSeconds>" ++ toString m ++ "</MaxAgeSeconds>") ++
    "</CORSRule>"

def rulesToXml (rules : List CorsRule) : String :=
  rootXml "CORSConfiguration" (concat (rules.map ruleXml))

/-! ### What is written -/

def ruleChildren (r : CorsRule) : List Node :=
  leaves "ID" r.id.toList ++ (leaves "AllowedHeader" r.allowedHeaders ++
    (leaves "AllowedMethod" r.allowedMethods ++ (leaves "AllowedOrigin" r.allowedOrigins ++
      (leaves "ExposeHeader" r.exposeHeaders ++ leaves "MaxAgeSeconds" (r.maxAge.toList.map toString)))))

def ruleNode (r : CorsRule) : Node := .branch "CORSRule" (ruleChildren r)

theorem number_digits (number : Nat) : ∀ char ∈ (toString number).toList, char.isDigit = true := by
  intro char member
  rw [Nat.toString_eq_ofList_toDigits, String.toList_ofList] at member
  exact Nat.isDigit_of_mem_toDigits (by decide) (by decide) member

theorem negative_text (number : Nat) :
    (toString (Int.negSucc number)).toList = '-' :: (toString (number + 1)).toList := by
  show ("-" ++ toString (number + 1)).toList = _
  rw [String.toList_append]
  rfl

theorem number_chars (value : Int) :
    ∀ char ∈ (toString value).toList, char.isDigit = true ∨ char = '-' := by
  intro char member
  cases value with
  | ofNat number => exact .inl (number_digits number char member)
  | negSucc number =>
    rw [negative_text] at member
    rcases List.mem_cons.mp member with rfl | inside
    · exact .inr rfl
    · exact .inl (number_digits _ char inside)

/-- A number needs no entities. -/
theorem escape_number (value : Int) : escape (toString value).toList = (toString value).toList := by
  have known : ∀ entity ∈ entities, entity.1.isDigit = false ∧ entity.1 ≠ '-' := by decide
  have kept : ∀ char : Char, char.isDigit = true ∨ char = '-' → escapeChar char = [char] := by
    intro char shape
    rcases escapeChar_cases char with ⟨kept, _⟩ | ⟨name, entity, _⟩
    · exact kept
    · obtain ⟨noDigit, noSign⟩ := known _ entity
      rcases shape with digit | rfl
      · rw [digit] at noDigit
        cases noDigit
      · exact absurd rfl noSign
  unfold escape
  rw [List.flatMap_congr fun char member => kept char (number_chars value char member)]
  exact List.flatMap_singleton' _

theorem ruleXml_print (r : CorsRule) : (ruleXml r).toList = (ruleNode r).print := by
  have opens : "<CORSRule>".toList = openTag "CORSRule".toList := rfl
  have closes : "</CORSRule>".toList = closeTag "CORSRule" := rfl
  have openAge : "<MaxAgeSeconds>".toList = openTag "MaxAgeSeconds".toList := rfl
  have closeAge : "</MaxAgeSeconds>".toList = closeTag "MaxAgeSeconds" := rfl
  have texts : ∀ (name : String) (items : List String),
      (concat (items.map (tag name))).toList = printAll (leaves name items) := fun name items =>
    concat_print (tag name) (.leaf name) items fun item _ => tag_print name item
  have age := concat_print (fun m : Int => "<MaxAgeSeconds>" ++ toString m ++ "</MaxAgeSeconds>")
    (fun m => .leaf "MaxAgeSeconds" (toString m)) r.maxAge.toList fun m _ => by
      rw [String.toList_append, String.toList_append, openAge, closeAge, Node.print, escape_number,
        List.append_assoc]
  have ages : r.maxAge.toList.map (fun m => Node.leaf "MaxAgeSeconds" (toString m)) =
      leaves "MaxAgeSeconds" (r.maxAge.toList.map toString) := by
    unfold leaves
    rw [List.map_map]
    rfl
  rw [ages] at age
  unfold ruleXml ruleNode ruleChildren
  simp only [String.toList_append, texts, age, opens, closes, Node.print, printAll_append, List.append_assoc]

theorem rulesToXml_inner (rules : List CorsRule) :
    (concat (rules.map ruleXml)).toList = printAll (rules.map ruleNode) :=
  concat_print ruleXml ruleNode rules fun rule _ => ruleXml_print rule

theorem rules_named (rules : List CorsRule) : AllNamed (rules.map ruleNode) := by
  rw [allNamed_iff]
  intro node member
  obtain ⟨rule, _, rfl⟩ := List.mem_map.mp member
  refine ⟨plain_of_all (by decide), ?_⟩
  rw [allNamed_iff]
  intro child inside
  unfold ruleChildren at inside
  simp only [List.mem_append] at inside
  rcases inside with here | here | here | here | here | here
  all_goals exact allNamed_iff.mp (allNamed_leaves (plain_of_all (by decide)) _) child here

/-! ### What is read -/

/-- A rule as it is read from a document. -/
def CorsRule.trimmed (rule : CorsRule) : CorsRule where
  id := rule.id.map trim
  allowedOrigins := rule.allowedOrigins.map trim
  allowedMethods := rule.allowedMethods.map trim
  allowedHeaders := rule.allowedHeaders.map trim
  exposeHeaders := rule.exposeHeaders.map trim
  maxAge := rule.maxAge

/-- **The rules that are accepted.** -/
structure CorsRule.Sound (rule : CorsRule) : Prop where
  valid : validate rule = .ok ()
  age : ∀ m, rule.maxAge = some m → -(2 ^ 63) ≤ m ∧ m < 2 ^ 63

theorem forM_ok {α ε : Type} {check : α → Except ε Unit} {items : List α} :
    items.forM check = .ok () ↔ ∀ item ∈ items, check item = .ok () := by
  induction items with
  | nil => exact ⟨fun _ _ member => absurd member List.not_mem_nil, fun _ => rfl⟩
  | cons item rest ih =>
    rw [List.forall_mem_cons, ← ih]
    show (check item >>= fun _ => rest.forM check) = .ok () ↔ _
    cases here : check item with
    | error error => exact ⟨fun same => (by cases same), fun both => (by cases both.1)⟩
    | ok done => exact ⟨fun same => ⟨rfl, same⟩, fun both => both.2⟩

theorem validate_ok {rule : CorsRule} : validate rule = .ok () ↔
    (rule.allowedOrigins ≠ [] ∧ rule.allowedMethods ≠ []) ∧ (∀ m ∈ rule.allowedMethods, m ∈ corsMethods) ∧
      ∀ o ∈ rule.allowedOrigins, o.toList.count '*' ≤ 1 := by
  have methods : (rule.allowedMethods.forM fun m => if !corsMethods.contains m then
      (.error (S3Error.new "InvalidRequest"
        ("Found unsupported HTTP method in CORS config. Unsupported method is " ++ m)) : S3Result Unit)
      else .ok ()) = .ok () ↔ ∀ m ∈ rule.allowedMethods, m ∈ corsMethods := by
    rw [forM_ok]
    refine forall₂_congr fun m _ => ?_
    by_cases known : m ∈ corsMethods
    · simp [known]
    · simp [known]
  have origins : (rule.allowedOrigins.forM fun o => if 1 < o.toList.count '*' then
      (.error (S3Error.new "InvalidRequest"
        ("AllowedOrigin \"" ++ o ++ "\" can not have more than one wildcard.")) : S3Result Unit)
      else .ok ()) = .ok () ↔ ∀ o ∈ rule.allowedOrigins, o.toList.count '*' ≤ 1 := by
    rw [forM_ok]
    refine forall₂_congr fun o _ => ?_
    by_cases many : 1 < o.toList.count '*'
    · rw [if_pos many]
      exact ⟨fun same => (by cases same), fun few => absurd many (Nat.not_lt.mpr few)⟩
    · rw [if_neg many]
      exact ⟨fun _ => Nat.not_lt.mp many, fun _ => rfl⟩
  unfold validate
  by_cases empty : (rule.allowedOrigins.isEmpty = true) ∨ rule.allowedMethods.isEmpty = true
  · rw [if_pos empty]
    rw [List.isEmpty_iff, List.isEmpty_iff] at empty
    refine ⟨fun same => (by cases same), fun sound => ?_⟩
    rcases empty with none' | none'
    · exact absurd none' sound.1.1
    · exact absurd none' sound.1.2
  · rw [if_neg empty]
    rw [List.isEmpty_iff, List.isEmpty_iff, not_or] at empty
    rw [← methods, ← origins]
    constructor
    · intro same
      cases first : (rule.allowedMethods.forM fun m => if !corsMethods.contains m then
          (.error (S3Error.new "InvalidRequest"
            ("Found unsupported HTTP method in CORS config. Unsupported method is " ++ m)) : S3Result Unit)
          else .ok ()) with
      | error error =>
        rw [first] at same
        cases same
      | ok done =>
        rw [first] at same
        exact ⟨empty, rfl, same⟩
    · rintro ⟨_, first, second⟩
      rw [first]
      exact second

theorem trim_count (text : String) : (trim text).toList.count '*' ≤ text.toList.count '*' := by
  obtain ⟨before, after, _, _, whole⟩ := Words.trimBy_spec (p := isWhitespace) text.toList
  have trimmed : (trim text).toList = Words.trimBy isWhitespace text.toList := String.toList_ofList
  have counted := congrArg (List.count '*') whole
  rw [List.count_append, List.count_append] at counted
  rw [trimmed]
  omega

theorem corsMethods_trimmed : ∀ m ∈ corsMethods, trim m = m := by decide

theorem CorsRule.Sound.trimmed {rule : CorsRule} (sound : rule.Sound) : validate rule.trimmed = .ok () := by
  obtain ⟨⟨origins, methods⟩, known, few⟩ := validate_ok.mp sound.valid
  refine validate_ok.mpr ⟨⟨?_, ?_⟩, ?_, ?_⟩
  · exact fun empty => origins (List.map_eq_nil_iff.mp empty)
  · exact fun empty => methods (List.map_eq_nil_iff.mp empty)
  · intro m member
    obtain ⟨method, inside, rfl⟩ := List.mem_map.mp member
    rw [corsMethods_trimmed method (known method inside)]
    exact known method inside
  · intro o member
    obtain ⟨origin, inside, rfl⟩ := List.mem_map.mp member
    exact (trim_count origin).trans (few origin inside)

theorem trim_number (value : Int) : trim (toString value) = toString value := by
  have solid : Words.Solid (toString value).toList := by
    have kept : ∀ char ∈ (toString value).toList, isWhitespace char = false := by
      intro char member
      rcases number_chars value char member with digit | rfl
      · unfold Char.isDigit at digit
        unfold isWhitespace
        rw [Bool.and_eq_true, decide_eq_true_iff, decide_eq_true_iff] at digit
        have low : 48 ≤ char.toNat := digit.1
        have high : char.toNat ≤ 57 := digit.2
        simp only [Bool.or_eq_false_iff, Bool.and_eq_false_iff, decide_eq_false_iff_not, beq_eq_false_iff_ne]
        omega
      · decide
    exact ⟨fun char here => kept char (List.mem_of_mem_head? here),
      fun char here => kept char (List.mem_of_mem_getLast? here)⟩
  have whole := Words.trimBy_whole solid
  have trimmed : trim (toString value) = String.ofList (Words.trimBy isWhitespace (toString value).toList) := rfl
  rw [trimmed, whole, String.ofList_toList]

theorem parse_number {value : Int} (low : -(2 ^ 63) ≤ value) (high : value < 2 ^ 63) :
    parseI64 (trim (toString value)) = some value := by
  rw [trim_number]
  cases value with
  | ofNat number => exact parseI64_toString number (by simpa using high)
  | negSucc number =>
    have parsed : digits (toString (number + 1)).toList = some (number + 1) := by
      have text : (toString (number + 1)).toList = Nat.toDigits 10 (number + 1) := by
        rw [Nat.toString_eq_ofList_toDigits, String.toList_ofList]
      have nonempty : (Nat.toDigits 10 (number + 1)).isEmpty = false := by
        rw [List.isEmpty_eq_false_iff]
        exact List.ne_nil_of_length_pos Nat.length_toDigits_pos
      rw [text, digits, nonempty, if_neg Bool.false_ne_true, digitsValue_eq _ _ fun char member =>
        Nat.isDigit_of_mem_toDigits (by decide) (by decide) member, Nat.ofDigitChars_toDigits (by decide) (by decide)]
    unfold parseI64
    rw [negative_text]
    show ((digits (toString (number + 1)).toList).bind _) = _
    rw [parsed]
    show (if number + 1 ≤ 2 ^ 63 then some (-((number + 1 : Nat) : Int)) else none) = _
    rw [if_pos (by omega)]
    rfl

theorem parseI64_range {text : String} {value : Int} (parsed : parseI64 text = some value) :
    -(2 ^ 63) ≤ value ∧ value < 2 ^ 63 := by
  unfold parseI64 at parsed
  split at parsed
  all_goals
    obtain ⟨number, _, read⟩ := Option.bind_eq_some_iff.mp parsed
    rw [Option.ite_none_right_eq_some] at read
    obtain ⟨small, same⟩ := read
    obtain rfl := Option.some.inj same
    omega

theorem asI64_range {given : Json} {value : Int} (read : given.asI64 = some value) :
    -(2 ^ 63) ≤ value ∧ value < 2 ^ 63 := by
  cases given with
  | num number =>
    unfold Json.asI64 at read
    rw [Option.ite_none_right_eq_some] at read
    obtain ⟨small, same⟩ := read
    obtain rfl := Option.some.inj same
    exact small
  | null => cases read
  | bool _ => cases read
  | float _ => cases read
  | str _ => cases read
  | arr _ => cases read
  | obj _ => cases read

theorem ruleChildren_named (r : CorsRule) (name : String) :
    (element (ruleNode r)).childrenNamed name =
      ((leaves "ID" r.id.toList).map element).filter (fun child => child.name == name) ++
        (((leaves "AllowedHeader" r.allowedHeaders).map element).filter (fun child => child.name == name) ++
          (((leaves "AllowedMethod" r.allowedMethods).map element).filter (fun child => child.name == name) ++
            (((leaves "AllowedOrigin" r.allowedOrigins).map element).filter (fun child => child.name == name) ++
              (((leaves "ExposeHeader" r.exposeHeaders).map element).filter (fun child => child.name == name) ++
                ((leaves "MaxAgeSeconds" (r.maxAge.toList.map toString)).map element).filter
                  (fun child => child.name == name))))) := by
  show (elements (ruleChildren r)).filter _ = _
  unfold ruleChildren
  simp only [elements_eq, List.map_append, List.filter_append]

/-- **A rule that is written is read, trimmed.** -/
theorem ruleOf_node {r : CorsRule} (sound : r.Sound) : ruleOf (element (ruleNode r)) = .ok r.trimmed := by
  have origins : childTexts (element (ruleNode r)) "AllowedOrigin" = r.allowedOrigins.map trim := by
    rw [childTexts, ruleChildren_named]
    simp [filter_leaves, Element.text]
  have methods : childTexts (element (ruleNode r)) "AllowedMethod" = r.allowedMethods.map trim := by
    rw [childTexts, ruleChildren_named]
    simp [filter_leaves, Element.text]
  have headers : childTexts (element (ruleNode r)) "AllowedHeader" = r.allowedHeaders.map trim := by
    rw [childTexts, ruleChildren_named]
    simp [filter_leaves, Element.text]
  have exposed : childTexts (element (ruleNode r)) "ExposeHeader" = r.exposeHeaders.map trim := by
    rw [childTexts, ruleChildren_named]
    simp [filter_leaves, Element.text]
  have id : (element (ruleNode r)).childText "ID" = r.id.map trim := by
    rw [Element.childText, child_eq, ruleChildren_named]
    cases r.id <;> simp [filter_leaves, Element.text]
  have age : ((element (ruleNode r)).childText "MaxAgeSeconds").bind parseI64 = r.maxAge := by
    rw [Element.childText, child_eq, ruleChildren_named]
    cases set : r.maxAge with
    | none => simp [filter_leaves]
    | some m =>
      obtain ⟨low, high⟩ := sound.age m set
      have parsed : parseI64 (trim m.repr) = some m := parse_number low high
      simpa [filter_leaves, Element.text] using parsed
  unfold ruleOf
  rw [origins, methods, headers, exposed, id, age]
  show (validate r.trimmed >>= fun _ => pure r.trimmed) = _
  rw [sound.trimmed]
  rfl

theorem ruleOf_sound {r : Element} {rule : CorsRule} (read : ruleOf r = .ok rule) :
    rule.Sound ∧ rule.trimmed = rule := by
  have texts : ∀ name, (childTexts r name).map trim = childTexts r name := by
    intro name
    unfold childTexts
    rw [List.map_map]
    exact List.map_congr_left fun child _ => trim_trim child.text
  have id : (r.childText "ID").map trim = r.childText "ID" := by
    unfold Element.childText
    rw [Option.map_map]
    exact congrArg (fun read : Element → String => (r.child "ID").map read) (funext fun child => trim_trim child.text)
  unfold ruleOf at read
  dsimp only at read
  generalize isRule : CorsRule.mk _ _ _ _ _ _ = found at read
  change (validate found >>= fun _ => pure found) = _ at read
  cases valid : validate found with
  | error error =>
    rw [valid] at read
    cases read
  | ok done =>
    rw [valid] at read
    obtain rfl := Except.ok.inj read
    refine ⟨⟨valid, fun m set => ?_⟩, ?_⟩
    · rw [← isRule] at set
      dsimp only at set
      cases text : r.childText "MaxAgeSeconds" with
      | none =>
        rw [text] at set
        cases set
      | some text' =>
        rw [text] at set
        exact parseI64_range set
    · rw [← isRule, CorsRule.trimmed]
      dsimp only
      rw [id, texts, texts, texts, texts]

/-- Checks one after the other that all succeed. -/
theorem mapM_ok {α β γ ε : Type} (f : β → Except ε γ) (g : α → β) (h : α → γ) (items : List α)
    (each : ∀ item ∈ items, f (g item) = .ok (h item)) : (items.map g).mapM f = .ok (items.map h) := by
  induction items with
  | nil => rfl
  | cons item rest ih =>
    rw [List.map_cons, List.mapM_cons, each item List.mem_cons_self,
      ih fun other member => each other (List.mem_cons_of_mem _ member)]
    rfl

theorem mapM_each {β γ ε : Type} {f : β → Except ε γ} {items : List β} :
    ∀ {results : List γ}, items.mapM f = .ok results → ∀ result ∈ results, ∃ item ∈ items, f item = .ok result := by
  induction items with
  | nil =>
    intro results all result member
    obtain rfl := Except.ok.inj all
    exact absurd member List.not_mem_nil
  | cons item rest ih =>
    intro results all result member
    rw [List.mapM_cons] at all
    cases first : f item with
    | error error =>
      rw [first] at all
      cases all
    | ok done =>
      cases later : rest.mapM f with
      | error error =>
        rw [first, later] at all
        cases all
      | ok others =>
        rw [first, later] at all
        obtain rfl := Except.ok.inj all
        rcases List.mem_cons.mp member with rfl | inside
        · exact ⟨item, List.mem_cons_self, first⟩
        · obtain ⟨other, where', same⟩ := ih later result inside
          exact ⟨other, List.mem_cons_of_mem _ where', same⟩

theorem parseRules_sound [Reader] {body : List UInt8} {rules : List CorsRule}
    (read : parseRules body = .ok rules) :
    (∀ rule ∈ rules, rule.Sound) ∧ (∀ rule ∈ rules, rule.trimmed = id rule) ∧ rules ≠ [] := by
  unfold parseRules at read
  cases root : parseRoot "CORSConfiguration" body with
  | error error =>
    rw [root] at read
    cases read
  | ok doc =>
    rw [root] at read
    change ((doc.childrenNamed "CORSRule").mapM ruleOf >>= _) = _ at read
    cases all : (doc.childrenNamed "CORSRule").mapM ruleOf with
    | error error =>
      rw [all] at read
      cases read
    | ok found =>
      rw [all] at read
      change (if found.isEmpty then .error S3Error.malformedXml else .ok found : S3Result (List CorsRule)) = _ at read
      split at read
      · cases read
      · rename_i filled
        obtain rfl := Except.ok.inj read
        refine ⟨fun rule member => ?_, fun rule member => ?_, fun empty => filled (by rw [empty]; rfl)⟩
        · obtain ⟨r, _, same⟩ := mapM_each all rule member
          exact (ruleOf_sound same).1
        · obtain ⟨r, _, same⟩ := mapM_each all rule member
          exact (ruleOf_sound same).2

theorem rulesFromJson_sound {seed : Json} {rules : List CorsRule} (read : rulesFromJson seed = .ok rules) :
    ∀ rule ∈ rules, rule.Sound := by
  intro rule member
  obtain ⟨r, _, same⟩ := mapM_each read rule member
  unfold ruleOfJson at same
  dsimp only at same
  generalize isRule : CorsRule.mk _ _ _ _ _ _ = found at same
  change (validate found >>= fun _ => pure found) = _ at same
  cases valid : validate found with
  | error error =>
    rw [valid] at same
    cases same
  | ok done =>
    rw [valid] at same
    obtain rfl := Except.ok.inj same
    refine ⟨valid, fun m set => ?_⟩
    rw [← isRule] at set
    dsimp only at set
    cases given : r.get "MaxAgeSeconds" with
    | none =>
      rw [given] at set
      cases set
    | some value =>
      rw [given, Option.bind_some] at set
      exact asI64_range set

section Stored

variable {reader : Reader} (reads : Reads reader)

include reads

theorem parseRules_xml {rules : List CorsRule} (sound : ∀ rule ∈ rules, rule.Sound) :
    parseRules (utf8 (rulesToXml rules)) =
      if rules = [] then .error S3Error.malformedXml else .ok (rules.map CorsRule.trimmed) := by
  have plainRoot : Plain "CORSConfiguration" := plain_of_all (by decide)
  have parsed := parseRoot_rootXml reads plainRoot (rules_named rules) (rulesToXml_inner rules)
  have children : (Element.mk "CORSConfiguration" [("xmlns", xmlns)] ((rules.map ruleNode).map element)
      "").childrenNamed "CORSRule" = rules.map fun rule => element (ruleNode rule) := by
    unfold Element.childrenNamed Element.children
    rw [List.map_map, List.filter_eq_self.mpr]
    · rfl
    · intro child member
      obtain ⟨rule, _, rfl⟩ := List.mem_map.mp member
      rfl
  have read := mapM_ok ruleOf (fun rule => element (ruleNode rule)) CorsRule.trimmed rules
    fun rule member => ruleOf_node (sound rule member)
  unfold parseRules rulesToXml
  rw [parsed]
  show ((Element.childrenNamed _ _).mapM ruleOf >>= _) = _
  rw [children, read]
  cases rules with
  | nil => rfl
  | cons rule rest => rfl

/-- **Rules are read back.** Those that were read from a document are read again as they were; those
of a seed are read with their texts trimmed, and a seed without rules leaves a document that is refused. -/
theorem rules_read_back : (∀ body rules, parseRules body = .ok rules →
      parseRules (utf8 (rulesToXml rules)) = .ok rules) ∧
    ∀ seed rules, rulesFromJson seed = .ok rules → parseRules (utf8 (rulesToXml rules)) =
      if rules = [] then .error S3Error.malformedXml else .ok (rules.map CorsRule.trimmed) := by
  refine ⟨fun body rules read => ?_, fun seed rules read => ?_⟩
  · obtain ⟨sound, trimmed, some'⟩ := parseRules_sound read
    rw [parseRules_xml reads sound, if_neg some']
    refine congrArg Except.ok ((List.map_congr_left trimmed).trans (List.map_id rules))
  · exact parseRules_xml reads fun rule member => (rulesFromJson_sound read rule member)

end Stored

/-- A seed with one rule, with blanks around its origin. -/
def sampleSeed : Json :=
  .arr [.obj [("AllowedMethods", .arr [.str "get"]), ("AllowedOrigins", .str " http://*.example.com "),
    ("MaxAgeSeconds", .num 600)]]

def sampleRule : CorsRule where
  id := none
  allowedOrigins := [" http://*.example.com "]
  allowedMethods := ["GET"]
  allowedHeaders := []
  exposeHeaders := []
  maxAge := some 600

theorem rules_read_back_lexer :
    @parseRules lexer (utf8 (rulesToXml [sampleRule])) = .ok [sampleRule.trimmed] := by
  have seeded : rulesFromJson sampleSeed = .ok [sampleRule] := by rfl
  have read := (rules_read_back lexer_reads).2 sampleSeed [sampleRule] seeded
  rwa [if_neg (List.cons_ne_nil _ _)] at read

end CloudTwin.S3
