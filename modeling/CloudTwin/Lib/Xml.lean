/-
**XML documents, and readers that find their items.**

A document is printed from a tree, with the five predefined entities in its texts. A reader goes through
it from the front and finds tags and texts; what the tree was is left to whoever reads the items.

* `Node`, `document` — a tree, and the document that is printed from it; `escape` — a text in it.
* `Item`, `Reader`, `Reads` — what a reader finds, and what is asked of it on printed documents.
* `lex`, `lexer` — a reader that cuts at the brackets; `lexer_reads`, it is one.
-/

import CloudTwin.Lib.Words

namespace CloudTwin.Lib.Xml

open Text Words

/-! ### Documents -/

def apostrophe : Char := Char.ofNat 39

/-- The predefined entities, with the characters they stand for. -/
def entities : List (Char × List Char) :=
  [('&', "amp".toList), ('<', "lt".toList), ('>', "gt".toList), ('"', "quot".toList),
    (apostrophe, "apos".toList)]

def escapeChar (char : Char) : List Char :=
  match entities.lookup char with
  | some name => '&' :: (name ++ [';'])
  | none => [char]

/-- A text, as it stands in a document. -/
def escape (text : List Char) : List Char := text.flatMap escapeChar

/-- A tree whose texts stand at its leaves. -/
inductive Node where
  | leaf (name text : String)
  | branch (name : String) (children : List Node)
  | empty (name : String)

def openTag (content : List Char) : List Char := '<' :: (content ++ ['>'])

def closeTag (name : String) : List Char := '<' :: '/' :: (name.toList ++ ['>'])

mutual

def Node.print : Node → List Char
  | .leaf name text => openTag name.toList ++ (escape text.toList ++ closeTag name)
  | .branch name children => openTag name.toList ++ (printAll children ++ closeTag name)
  | .empty name => openTag (name.toList ++ ['/'])

def printAll : List Node → List Char
  | [] => []
  | node :: rest => node.print ++ printAll rest

end

/-- The attributes of the root, each behind a space. -/
def printAttrs (attrs : List (String × String)) : List Char :=
  attrs.flatMap fun attr => ' ' :: (attr.1.toList ++ '=' :: '"' :: (attr.2.toList ++ ['"']))

def declaration : String := "?xml version=\"1.0\" encoding=\"UTF-8\"?"

/-- **A document**: the declaration, and the root. -/
def document (root : String) (attrs : List (String × String)) (children : List Node) : List Char :=
  openTag declaration.toList ++ '\n' ::
    (openTag (root.toList ++ printAttrs attrs) ++ (printAll children ++ closeTag root))

/-- A name of letters and digits. -/
def Plain (name : String) : Prop := name.toList ≠ [] ∧ ∀ char ∈ name.toList, isAsciiAlphanumeric char = true

theorem plain_of_all {name : String}
    (checked : (!name.toList.isEmpty && name.toList.all isAsciiAlphanumeric) = true) : Plain name := by
  rw [Bool.and_eq_true, Bool.not_eq_true', List.isEmpty_eq_false_iff] at checked
  exact ⟨checked.1, List.all_eq_true.mp checked.2⟩

/-- A value without quotes, spaces and brackets. -/
def Quotable (value : String) : Prop :=
  ∀ char ∈ value.toList, char ≠ '"' ∧ char ≠ ' ' ∧ char ≠ '<' ∧ char ≠ '>' ∧ char ≠ '&'

theorem quotable_of_all {value : String} (checked : (value.toList.all fun char =>
    !(['"', ' ', '<', '>', '&'] : List Char).contains char) = true) : Quotable value := by
  intro char member
  have here := List.all_eq_true.mp checked char member
  rw [Bool.not_eq_true', ← Bool.not_eq_true, List.contains_iff_mem] at here
  simpa only [List.mem_cons, List.not_mem_nil, or_false, not_or] using here

mutual

/-- The names of a tree are plain. -/
def Node.Named : Node → Prop
  | .leaf name _ => Plain name
  | .branch name children => Plain name ∧ AllNamed children
  | .empty name => Plain name

def AllNamed : List Node → Prop
  | [] => True
  | node :: rest => node.Named ∧ AllNamed rest

end

theorem printAll_append (first second : List Node) :
    printAll (first ++ second) = printAll first ++ printAll second := by
  induction first with
  | nil => rfl
  | cons node rest ih =>
    show node.print ++ printAll (rest ++ second) = _
    rw [ih, ← List.append_assoc]
    rfl

theorem allNamed_iff {nodes : List Node} : AllNamed nodes ↔ ∀ node ∈ nodes, node.Named := by
  induction nodes with
  | nil => exact ⟨fun _ _ member => absurd member List.not_mem_nil, fun _ => trivial⟩
  | cons node rest ih =>
    rw [List.forall_mem_cons, ← ih]
    rfl

/-! ### Readers -/

/-- What a reader finds. Names and texts are handed over as they stand. -/
inductive Item where
  | start (name : List UInt8) (attrs : List (List UInt8 × Option String))
  | empty (name : List UInt8)
  | finish
  | text (raw : List UInt8)
  | cdata (bytes : List UInt8)
  | other
deriving DecidableEq

/-- The items up to the end of the document, or to the first error. -/
structure Reading where
  items : List Item
  failure : Option String
deriving DecidableEq

/-- A reader, and what it makes of the entities in a text. -/
class Reader where
  read : List UInt8 → Reading
  unescape : List UInt8 → Except String String

def bytesOf (chars : List Char) : List UInt8 := utf8 (String.ofList chars)

mutual

/-- The items of a tree. An empty text is no item. -/
def Node.items : Node → List Item
  | .leaf name text => .start (utf8 name) [] ::
      ((if text.toList = [] then [] else [.text (bytesOf (escape text.toList))]) ++ [.finish])
  | .branch name children => .start (utf8 name) [] :: (itemsAll children ++ [.finish])
  | .empty name => [.empty (utf8 name)]

def itemsAll : List Node → List Item
  | [] => []
  | node :: rest => node.items ++ itemsAll rest

end

def documentItems (root : String) (attrs : List (String × String)) (children : List Node) : List Item :=
  .other :: .text (utf8 "\n") :: .start (utf8 root) (attrs.map fun attr => (utf8 attr.1, some attr.2)) ::
    (itemsAll children ++ [.finish])

/-- **What is asked of a reader**: it finds the items of a printed document, and takes the predefined
entities for their characters. -/
structure Reads (reader : Reader) : Prop where
  unescapes : ∀ text : String, reader.unescape (bytesOf (escape text.toList)) = .ok text
  finds : ∀ (root : String) (attrs : List (String × String)) (children : List Node), Plain root →
    (attrs.map Prod.fst).Nodup → (∀ attr ∈ attrs, Plain attr.1 ∧ Quotable attr.2) → AllNamed children →
    reader.read (bytesOf (document root attrs children)) = ⟨documentItems root attrs children, none⟩

/-! ### Names and texts -/

theorem Plain.absent {name : String} (plain : Plain name) {char : Char}
    (other : isAsciiAlphanumeric char = false) : char ∉ name.toList := by
  intro member
  rw [plain.2 char member] at other
  cases other

theorem bytesOf_toList (text : String) : bytesOf text.toList = utf8 text := by
  unfold bytesOf
  rw [String.ofList_toList]

theorem escapeChar_cases (char : Char) : (escapeChar char = [char] ∧ char ≠ '&' ∧ char ≠ '<' ∧ char ≠ '>') ∨
    ∃ name, (char, name) ∈ entities ∧ escapeChar char = '&' :: (name ++ [';']) := by
  unfold escapeChar
  cases found : entities.lookup char with
  | some name =>
    obtain ⟨before, after, split, _⟩ := List.lookup_eq_some_iff.mp found
    exact .inr ⟨name, by rw [split]; simp, rfl⟩
  | none =>
    have absent : ∀ entity ∈ entities, char ≠ entity.1 := fun entity member =>
      bne_iff_ne.mp (List.lookup_eq_none_iff.mp found entity member)
    exact .inl ⟨rfl, absent ('&', "amp".toList) (by decide), absent ('<', "lt".toList) (by decide),
      absent ('>', "gt".toList) (by decide)⟩

theorem entities_plain : ∀ entity ∈ entities, '<' ∉ entity.2 ∧ ';' ∉ entity.2 := by decide

theorem escape_open (text : List Char) : '<' ∉ escape text := by
  intro member
  obtain ⟨char, _, inside⟩ := List.mem_flatMap.mp member
  rcases escapeChar_cases char with ⟨kept, _, notOpen, _⟩ | ⟨name, entity, replaced⟩
  · rw [kept] at inside
    exact notOpen (List.mem_singleton.mp inside).symm
  · rw [replaced] at inside
    have plain := (entities_plain _ entity).1
    simp at inside
    exact plain inside

theorem escape_eq_nil {text : List Char} : escape text = [] ↔ text = [] := by
  constructor
  · intro empty
    cases text with
    | nil => rfl
    | cons char rest =>
      rw [escape, List.flatMap_cons, List.append_eq_nil_iff] at empty
      rcases escapeChar_cases char with ⟨kept, _⟩ | ⟨name, _, replaced⟩
      · rw [kept] at empty
        cases empty.1
      · rw [replaced] at empty
        cases empty.1
  · rintro rfl
    rfl

/-! ### A reader that cuts at the brackets -/

inductive Token where
  | tag (content : List Char)
  | chars (raw : List Char)

def flush (held : List Char) : List Token := if held = [] then [] else [.chars held.reverse]

/-- `inside` a tag or not, with what was `held` of it, reversed. -/
def lex : Bool → List Char → List Char → List Token
  | _, held, [] => flush held
  | false, held, next :: rest =>
    if next = '<' then flush held ++ lex true [] rest else lex false (next :: held) rest
  | true, held, next :: rest =>
    if next = '>' then .tag held.reverse :: lex false [] rest else lex true (next :: held) rest

def attrOf (part : List Char) : List UInt8 × Option String :=
  match splitOnceAt '=' part with
  | some (name, value) => (bytesOf name, some (String.ofList (value.drop 1).dropLast))
  | none => (bytesOf part, none)

def itemOf : Token → Item
  | .chars raw => .text (bytesOf raw)
  | .tag content =>
    if content.head? = some '?' then .other
    else if content.head? = some '/' then .finish
    else if content.getLast? = some '/' then .empty (bytesOf content.dropLast)
    else match splitGo ' ' [] content with
      | [] => .other
      | name :: attrs => .start (bytesOf name) (attrs.map attrOf)

/-- The characters of a text, or of an entity when some of its name is held. -/
def unescapeGo : Option (List Char) → List Char → Option (List Char)
  | none, [] => some []
  | some _, [] => none
  | none, next :: rest =>
    if next = '&' then unescapeGo (some []) rest else (unescapeGo none rest).map (next :: ·)
  | some held, next :: rest =>
    if next = ';' then
      match entities.find? fun entity => entity.2 = held.reverse with
      | some entity => (unescapeGo none rest).map (entity.1 :: ·)
      | none => none
    else unescapeGo (some (next :: held)) rest

@[reducible]
def lexer : Reader where
  read bytes :=
    match fromUtf8 bytes with
    | some text => ⟨(lex false [] text.toList).map itemOf, none⟩
    | none => ⟨[], some "invalid utf-8"⟩
  unescape bytes :=
    match (fromUtf8 bytes).bind fun text => unescapeGo none text.toList with
    | some chars => .ok (String.ofList chars)
    | none => .error "unrecognized entity"

theorem lex_chars {raw : List Char} (absent : '<' ∉ raw) (rest : List Char) :
    ∀ held, lex false held (raw ++ '<' :: rest) = flush (raw.reverse ++ held) ++ lex true [] rest := by
  induction raw with
  | nil =>
    intro held
    rw [List.nil_append, lex, if_pos rfl]
    rfl
  | cons next raw ih =>
    intro held
    have different : next ≠ '<' := fun same => absent (same ▸ List.mem_cons_self)
    rw [List.cons_append, lex, if_neg different, ih fun member => absent (List.mem_cons_of_mem _ member),
      List.reverse_cons, List.append_assoc, List.singleton_append]

theorem lex_tag {content : List Char} (absent : '>' ∉ content) (rest : List Char) :
    ∀ held, lex true held (content ++ '>' :: rest) = .tag (held.reverse ++ content) :: lex false [] rest := by
  induction content with
  | nil =>
    intro held
    rw [List.nil_append, lex, if_pos rfl, List.append_nil]
  | cons next content ih =>
    intro held
    have different : next ≠ '>' := fun same => absent (same ▸ List.mem_cons_self)
    rw [List.cons_append, lex, if_neg different, ih fun member => absent (List.mem_cons_of_mem _ member),
      List.reverse_cons, List.append_assoc, List.singleton_append]

theorem lex_open {content : List Char} (absent : '>' ∉ content) (rest : List Char) :
    lex false [] (openTag content ++ rest) = .tag content :: lex false [] rest := by
  have tagged := lex_tag absent rest []
  rw [openTag, List.cons_append, List.append_assoc, List.singleton_append, lex, if_pos rfl, tagged]
  rfl

/-- A text is cut off at the tag behind it. -/
theorem lex_leaf {raw : List Char} {name : String} (absent : '<' ∉ raw) (plain : Plain name)
    (rest : List Char) : lex false [] (raw ++ (closeTag name ++ rest)) =
      (if raw = [] then [] else [.chars raw]) ++ .tag ('/' :: name.toList) :: lex false [] rest := by
  have closes : '>' ∉ '/' :: name.toList := by
    rw [List.mem_cons, not_or]
    exact ⟨by decide, plain.absent (by decide)⟩
  have shape : raw ++ (closeTag name ++ rest) = raw ++ '<' :: ('/' :: name.toList ++ '>' :: rest) := by
    simp [closeTag]
  have flushed : flush (raw.reverse ++ []) = if raw = [] then [] else [.chars raw] := by
    simp [flush]
  rw [shape, lex_chars absent, lex_tag closes, flushed]
  rfl

theorem itemOf_open {name : String} (plain : Plain name) :
    itemOf (.tag name.toList) = .start (utf8 name) [] := by
  have first : ∀ char, isAsciiAlphanumeric char = false → name.toList.head? ≠ some char := fun char other same =>
    plain.absent other (List.mem_of_mem_head? same)
  have last : name.toList.getLast? ≠ some '/' := fun same =>
    plain.absent (by decide) (List.mem_of_mem_getLast? same)
  rw [itemOf, if_neg (first _ (by decide)), if_neg (first _ (by decide)), if_neg last,
    splitGo_last ' ' _ (plain.absent (by decide)), List.reverse_nil, List.nil_append]
  show Item.start (bytesOf name.toList) [] = _
  rw [bytesOf_toList]

theorem itemOf_close (name : List Char) : itemOf (.tag ('/' :: name)) = .finish := by
  rw [itemOf, List.head?_cons, if_neg (by decide), if_pos rfl]

theorem itemOf_empty {name : String} (plain : Plain name) :
    itemOf (.tag (name.toList ++ ['/'])) = .empty (utf8 name) := by
  have first : ∀ char, isAsciiAlphanumeric char = false → (name.toList ++ ['/']).head? ≠ some char := by
    intro char other same
    rw [List.head?_append_of_ne_nil _ plain.1] at same
    exact plain.absent other (List.mem_of_mem_head? same)
  rw [itemOf, if_neg (first _ (by decide)), if_neg (first _ (by decide)), List.getLast?_concat, if_pos rfl,
    List.dropLast_concat, bytesOf_toList]

mutual

theorem lex_node : ∀ {node : Node}, node.Named → ∀ rest,
    (lex false [] (node.print ++ rest)).map itemOf = node.items ++ (lex false [] rest).map itemOf
  | .leaf name text, named, rest => by
    have plain : Plain name := named
    show (lex false [] ((openTag name.toList ++ (escape text.toList ++ closeTag name)) ++ rest)).map itemOf = _
    rw [List.append_assoc, List.append_assoc, lex_open (plain.absent (by decide)),
      lex_leaf (escape_open _) plain, List.map_cons, itemOf_open plain, List.map_append, List.map_cons,
      itemOf_close]
    unfold Node.items
    by_cases empty : text.toList = []
    · rw [if_pos (escape_eq_nil.mpr empty), if_pos empty]
      rfl
    · rw [if_neg (fun none => empty (escape_eq_nil.mp none)), if_neg empty]
      rfl
  | .branch name children, named, rest => by
    have plain : Plain name := named.1
    have closes := lex_leaf (List.not_mem_nil (a := '<')) plain rest
    rw [List.nil_append, if_pos rfl, List.nil_append] at closes
    show (lex false [] ((openTag name.toList ++ (printAll children ++ closeTag name)) ++ rest)).map itemOf = _
    rw [List.append_assoc, List.append_assoc, lex_open (plain.absent (by decide)), List.map_cons,
      lex_nodes named.2, closes, List.map_cons, itemOf_open plain, itemOf_close]
    unfold Node.items
    simp only [List.cons_append, List.append_assoc, List.nil_append]
  | .empty name, named, rest => by
    have plain : Plain name := named
    have absent : '>' ∉ name.toList ++ ['/'] := by
      rw [List.mem_append, not_or]
      exact ⟨plain.absent (by decide), by decide⟩
    show (lex false [] (openTag (name.toList ++ ['/']) ++ rest)).map itemOf = _
    rw [lex_open absent, List.map_cons, itemOf_empty plain]
    rfl

theorem lex_nodes : ∀ {nodes : List Node}, AllNamed nodes → ∀ rest,
    (lex false [] (printAll nodes ++ rest)).map itemOf = itemsAll nodes ++ (lex false [] rest).map itemOf
  | [], _, _ => rfl
  | node :: nodes, named, rest => by
    show (lex false [] ((node.print ++ printAll nodes) ++ rest)).map itemOf = _
    rw [List.append_assoc, lex_node named.1, lex_nodes named.2, ← List.append_assoc]
    rfl

end

/-! ### The root -/

theorem printAttrs_plain {attrs : List (String × String)}
    (plain : ∀ attr ∈ attrs, Plain attr.1 ∧ Quotable attr.2) : '>' ∉ printAttrs attrs := by
  intro member
  obtain ⟨attr, inside, here⟩ := List.mem_flatMap.mp member
  obtain ⟨name, value⟩ := plain attr inside
  simp only [List.mem_cons, List.mem_append, List.not_mem_nil, or_false] at here
  rcases here with here | here | here | here | here | here
  · exact absurd here (by decide)
  · exact name.absent (by decide) here
  · exact absurd here (by decide)
  · exact absurd here (by decide)
  · exact (value _ here).2.2.2.1 rfl
  · exact absurd here (by decide)

theorem attrOf_print {attr : String × String} (plain : Plain attr.1) :
    attrOf (attr.1.toList ++ '=' :: '"' :: (attr.2.toList ++ ['"'])) = (utf8 attr.1, some attr.2) := by
  rw [attrOf, splitOnceAt_append (plain.absent (by decide))]
  show (bytesOf _, some (String.ofList (attr.2.toList ++ ['"']).dropLast)) = _
  rw [List.dropLast_concat, bytesOf_toList, String.ofList_toList]

theorem split_attrs {attrs : List (String × String)} :
    ∀ {first : List Char}, (∀ attr ∈ attrs, Plain attr.1 ∧ Quotable attr.2) → ' ' ∉ first →
      splitGo ' ' [] (first ++ printAttrs attrs) = first ::
        attrs.map fun attr => attr.1.toList ++ '=' :: '"' :: (attr.2.toList ++ ['"']) := by
  induction attrs with
  | nil =>
    intro first _ absent
    show splitGo ' ' [] (first ++ []) = _
    rw [List.append_nil, splitGo_last ' ' _ absent]
    rfl
  | cons attr rest ih =>
    intro first plain absent
    obtain ⟨name, value⟩ := plain attr List.mem_cons_self
    have inside : ' ' ∉ attr.1.toList ++ '=' :: '"' :: (attr.2.toList ++ ['"']) := by
      simp only [List.mem_append, List.mem_cons, List.not_mem_nil, or_false, not_or]
      exact ⟨name.absent (by decide), by decide, by decide, fun here => (value _ here).2.1 rfl, by decide⟩
    have shape : first ++ printAttrs (attr :: rest) = first ++
        ' ' :: ((attr.1.toList ++ '=' :: '"' :: (attr.2.toList ++ ['"'])) ++ printAttrs rest) := by
      unfold printAttrs
      rw [List.flatMap_cons, List.cons_append]
    rw [shape, splitGo_append ' ' _ absent, ih (fun other member => plain other (List.mem_cons_of_mem _ member))
      inside]
    rfl

theorem itemOf_root {root : String} {attrs : List (String × String)} (plainRoot : Plain root)
    (plain : ∀ attr ∈ attrs, Plain attr.1 ∧ Quotable attr.2) :
    itemOf (.tag (root.toList ++ printAttrs attrs)) =
      .start (utf8 root) (attrs.map fun attr => (utf8 attr.1, some attr.2)) := by
  have first : ∀ char, isAsciiAlphanumeric char = false →
      (root.toList ++ printAttrs attrs).head? ≠ some char := by
    intro char other same
    rw [List.head?_append_of_ne_nil _ plainRoot.1] at same
    exact plainRoot.absent other (List.mem_of_mem_head? same)
  have last : (root.toList ++ printAttrs attrs).getLast? ≠ some '/' := by
    cases attrs using List.reverseRecOn with
    | nil =>
      show (root.toList ++ []).getLast? ≠ _
      rw [List.append_nil]
      exact fun same => plainRoot.absent (by decide) (List.mem_of_mem_getLast? same)
    | append_singleton rest attr =>
      have shape : root.toList ++ printAttrs (rest ++ [attr]) = (root.toList ++ (printAttrs rest ++
          ' ' :: (attr.1.toList ++ '=' :: '"' :: attr.2.toList))) ++ ['"'] := by
        simp [printAttrs]
      rw [shape, List.getLast?_concat]
      decide
  rw [itemOf, if_neg (first _ (by decide)), if_neg (first _ (by decide)), if_neg last,
    split_attrs plain (plainRoot.absent (by decide))]
  show Item.start (bytesOf root.toList) _ = _
  rw [bytesOf_toList, List.map_map]
  exact congrArg _ (List.map_congr_left fun attr member => attrOf_print (plain attr member).1)

/-! ### Entities -/

theorem unescapeGo_held {name : List Char} (absent : ';' ∉ name) (rest : List Char) :
    ∀ held, unescapeGo (some held) (name ++ ';' :: rest) =
      match entities.find? fun entity => entity.2 = held.reverse ++ name with
      | some entity => (unescapeGo none rest).map (entity.1 :: ·)
      | none => none := by
  induction name with
  | nil =>
    intro held
    rw [List.nil_append, unescapeGo, if_pos rfl, List.append_nil]
  | cons next name ih =>
    intro held
    have different : next ≠ ';' := fun same => absent (same ▸ List.mem_cons_self)
    rw [List.cons_append, unescapeGo, if_neg different,
      ih (fun member => absent (List.mem_cons_of_mem _ member)), List.reverse_cons, List.append_assoc,
      List.singleton_append]

theorem entities_found : ∀ entity ∈ entities,
    (entities.find? fun other => other.2 = entity.2) = some entity := by decide

theorem unescapeGo_char (char : Char) (rest : List Char) :
    unescapeGo none (escapeChar char ++ rest) = (unescapeGo none rest).map (char :: ·) := by
  rcases escapeChar_cases char with ⟨kept, notAmp, _⟩ | ⟨name, entity, replaced⟩
  · rw [kept, List.singleton_append, unescapeGo, if_neg notAmp]
  · have found := unescapeGo_held (entities_plain _ entity).2 rest []
    rw [List.reverse_nil, List.nil_append, entities_found _ entity] at found
    rw [replaced, List.cons_append, List.append_assoc, List.singleton_append, unescapeGo, if_pos rfl, found]

theorem unescapeGo_escape (text : List Char) : unescapeGo none (escape text) = some text := by
  induction text with
  | nil => rfl
  | cons char rest ih =>
    rw [escape, List.flatMap_cons, unescapeGo_char]
    unfold escape at ih
    rw [ih]
    rfl

/-- **The reader that cuts at the brackets finds what is printed.** -/
theorem lexer_reads : Reads lexer where
  unescapes text := by
    unfold lexer bytesOf
    dsimp only
    rw [fromUtf8_utf8, Option.bind_some, String.toList_ofList, unescapeGo_escape]
    dsimp only
    rw [String.ofList_toList]
  finds root attrs children plainRoot _ plain named := by
    have closes := lex_leaf (List.not_mem_nil (a := '<')) plainRoot []
    rw [List.nil_append, List.append_nil, if_pos rfl, List.nil_append] at closes
    have opens : '>' ∉ root.toList ++ printAttrs attrs := by
      rw [List.mem_append, not_or]
      exact ⟨plainRoot.absent (by decide), printAttrs_plain plain⟩
    have newline := lex_chars (show '<' ∉ ['\n'] by decide) ((root.toList ++ printAttrs attrs) ++
      '>' :: (printAll children ++ closeTag root)) []
    have declared : lex false [] (document root attrs children) = .tag declaration.toList :: .chars ['\n'] ::
        .tag (root.toList ++ printAttrs attrs) :: lex false [] (printAll children ++ closeTag root) := by
      have tagged := lex_tag opens (printAll children ++ closeTag root) []
      have shape : '\n' :: (openTag (root.toList ++ printAttrs attrs) ++ (printAll children ++ closeTag root)) =
          ['\n'] ++ '<' :: ((root.toList ++ printAttrs attrs) ++ '>' :: (printAll children ++ closeTag root)) := by
        simp [openTag]
      rw [document, lex_open (by decide), shape, newline, tagged]
      rfl
    have inner := lex_nodes named (closeTag root)
    rw [closes, List.map_cons, itemOf_close] at inner
    unfold lexer bytesOf
    dsimp only
    rw [fromUtf8_utf8]
    dsimp only
    rw [String.toList_ofList, declared, List.map_cons, List.map_cons, List.map_cons, inner,
      itemOf_root plainRoot plain]
    rfl

end CloudTwin.Lib.Xml
