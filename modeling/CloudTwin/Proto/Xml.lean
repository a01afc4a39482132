/-
**The XML tree of a request body** (`xml.rs`, `proto.rs`).

A reader hands over the items of the document, and a stack of open elements makes a tree of them. Names
lose their prefixes, and the texts of an element are put together.

* `Element`, `parse` — the code; `xmlEscape` — texts in the documents that the services write.
* `Node.element`, `parseFrom_all` — what the stack makes of the items of a tree.
* `parse_document` — a document that is printed is parsed as its tree.
-/

import CloudTwin.Lib.Xml

namespace CloudTwin.Proto

open Lib Lib.Text Lib.Xml

/-! ### The tree -/

inductive Element where
  | mk (name : String) (attrs : List (String × String)) (children : List Element) (text : String)

namespace Element

def name : Element → String
  | mk name _ _ _ => name

def attrs : Element → List (String × String)
  | mk _ attrs _ _ => attrs

def children : Element → List Element
  | mk _ _ children _ => children

def text : Element → String
  | mk _ _ _ text => text

/-- First direct child with the given local name. -/
def child (element : Element) (name : String) : Option Element :=
  element.children.find? fun child => child.name == name

/-- All direct children with the given local name. -/
def childrenNamed (element : Element) (name : String) : List Element :=
  element.children.filter fun child => child.name == name

/-- Trimmed text of the first direct child with the given name. -/
def childText (element : Element) (name : String) : Option String :=
  (element.child name).map fun child => trim child.text

/-- Follow a path of child names. -/
def path (element : Element) (names : List String) : Option Element :=
  names.foldlM child element

/-- `parent.children.push(el)`. -/
def push (parent child : Element) : Element :=
  mk parent.name parent.attrs (parent.children ++ [child]) parent.text

/-- `cur.text.push_str(..)`. -/
def pushText (element : Element) (more : String) : Element :=
  mk element.name element.attrs element.children (element.text ++ more)

end Element

def localName (raw : List UInt8) : String := afterLast ':' (fromUtf8Lossy raw)

section Parse

variable [Reader]

/-- The loop of `parse`. The open elements are on the stack, the innermost first. -/
def parseFrom (failure : Option String) :
    List Item → List Element → Option Element → Except String Element
  | [], _, root =>
    match failure with
    | some message => .error message
    | none => root.elim (.error "empty XML document") .ok
  | .start name attrs :: rest, stack, root =>
    let opened := .mk (localName name)
      (attrs.map fun attr => (localName attr.1, attr.2.getD "")) [] ""
    parseFrom failure rest (opened :: stack) root
  | .empty name :: rest, stack, root =>
    let el := .mk (localName name) [] [] ""
    match stack with
    | parent :: below => parseFrom failure rest (parent.push el :: below) root
    | [] => parseFrom failure rest [] (some el)
  | .finish :: rest, stack, root =>
    match stack with
    | [] => .error "unbalanced XML"
    | el :: parent :: below => parseFrom failure rest (parent.push el :: below) root
    | [el] => parseFrom failure rest [] (some el)
  | .text raw :: rest, stack, root =>
    match stack with
    | [] => parseFrom failure rest [] root
    | cur :: below =>
      match Reader.unescape raw with
      | .error message => .error message
      | .ok text => parseFrom failure rest (cur.pushText text :: below) root
  | .cdata bytes :: rest, stack, root =>
    match stack with
    | [] => parseFrom failure rest [] root
    | cur :: below => parseFrom failure rest (cur.pushText (fromUtf8Lossy bytes) :: below) root
  | .other :: rest, stack, root => parseFrom failure rest stack root

/-- Parse an XML document and return its root element. -/
def parse (input : List UInt8) : Except String Element :=
  let reading := Reader.read input
  parseFrom reading.failure reading.items [] none

end Parse

/-! ### Texts -/

/-- `str::replace` of a character. -/
def replaceChar (char : Char) (by' : String) (text : List Char) : List Char :=
  text.flatMap fun other => if other = char then by'.toList else [other]

/-- `xml_escape`. -/
def xmlEscape (text : String) : String :=
  String.ofList (replaceChar apostrophe "&apos;" (replaceChar '"' "&quot;"
    (replaceChar '>' "&gt;" (replaceChar '<' "&lt;" (replaceChar '&' "&amp;" text.toList)))))

theorem replaceChar_other {char other : Char} (different : other ≠ char) (by' : String) :
    replaceChar char by' [other] = [other] := by
  unfold replaceChar
  rw [List.flatMap_singleton, if_neg different]

/-- One replacement after the other does not touch what the earlier ones have written. -/
theorem xmlEscape_eq (text : String) : xmlEscape text = String.ofList (escape text.toList) := by
  have one : ∀ char : Char, replaceChar apostrophe "&apos;" (replaceChar '"' "&quot;"
      (replaceChar '>' "&gt;" (replaceChar '<' "&lt;" (if char = '&' then "&amp;".toList else [char])))) =
      escapeChar char := by
    intro char
    by_cases amp : char = '&'
    · subst amp
      decide
    rw [if_neg amp]
    by_cases lt : char = '<'
    · subst lt
      decide
    by_cases gt : char = '>'
    · subst gt
      decide
    by_cases quot : char = '"'
    · subst quot
      decide
    by_cases apos : char = apostrophe
    · subst apos
      decide
    have kept : escapeChar char = [char] := by
      unfold escapeChar
      rw [List.lookup_eq_none_iff.mpr ?_]
      simp [entities, amp, lt, gt, quot, apos]
    rw [kept]
    rw [replaceChar_other lt, replaceChar_other gt, replaceChar_other quot, replaceChar_other apos]
  unfold xmlEscape escape
  refine congrArg String.ofList ?_
  have split : ∀ (char : Char) (by' : String) (first second : List Char),
      replaceChar char by' (first ++ second) = replaceChar char by' first ++ replaceChar char by' second :=
    fun _ _ _ _ => List.flatMap_append
  induction text.toList with
  | nil => rfl
  | cons char rest ih =>
    rw [List.flatMap_cons, ← one char, ← ih]
    simp only [← split]
    rfl

/-! ### What the stack makes of a tree -/

mutual

/-- The element that stands for a node. -/
def element : Node → Element
  | .leaf name text => .mk name [] [] text
  | .branch name children => .mk name [] (elements children) ""
  | .empty name => .mk name [] [] ""

def elements : List Node → List Element
  | [] => []
  | node :: rest => element node :: elements rest

end

theorem elements_eq (nodes : List Node) : elements nodes = nodes.map element := by
  induction nodes with
  | nil => rfl
  | cons node rest ih =>
    rw [List.map_cons, ← ih]
    rfl

theorem localName_plain {name : String} (plain : Plain name) : localName (utf8 name) = name := by
  have kept : ∀ char ∈ name.toList.reverse, (char != ':') = true := by
    intro char member
    rw [bne_iff_ne]
    rintro rfl
    exact plain.absent (by decide) (List.mem_reverse.mp member)
  rw [localName, fromUtf8Lossy_utf8, afterLast, List.takeWhile_eq_self_iff.mpr kept, List.reverse_reverse,
    String.ofList_toList]

section Parsed

variable {reader : Reader}

mutual

/-- **The items of a node make its element**, in the element that is open. -/
theorem parseFrom_node (reads : Reads reader) (failure : Option String) : ∀ {node : Node}, node.Named →
    ∀ (rest : List Item) (top : Element) (below : List Element) (root : Option Element),
      parseFrom failure (node.items ++ rest) (top :: below) root =
        parseFrom failure rest (top.push (element node) :: below) root
  | .leaf name text, named, rest, top, below, root => by
    have plain : Plain name := named
    unfold Node.items
    rw [List.cons_append, parseFrom, localName_plain plain]
    by_cases empty : text.toList = []
    · obtain rfl : text = "" := String.toList_inj.mp empty
      rfl
    · rw [if_neg empty]
      show parseFrom failure (.text _ :: (.finish :: rest)) _ root = _
      rw [parseFrom]
      rw [reads.unescapes]
      dsimp only
      rw [parseFrom]
      rfl
  | .branch name children, named, rest, top, below, root => by
    have plain : Plain name := named.1
    unfold Node.items
    rw [List.cons_append, List.append_assoc, parseFrom, localName_plain plain]
    rw [parseFrom_all reads failure named.2, List.singleton_append, parseFrom]
    rfl
  | .empty name, named, rest, top, below, root => by
    have plain : Plain name := named
    unfold Node.items
    rw [List.singleton_append, parseFrom, localName_plain plain]
    rfl

theorem parseFrom_all (reads : Reads reader) (failure : Option String) :
    ∀ {nodes : List Node}, AllNamed nodes → ∀ (rest : List Item) (top : Element) (below : List Element) (root : Option Element),
      parseFrom failure (itemsAll nodes ++ rest) (top :: below) root =
        parseFrom failure rest
          (.mk top.name top.attrs (top.children ++ elements nodes) top.text :: below) root
  | [], _, rest, top, below, root => by
    obtain ⟨name, attrs, children, text⟩ := top
    show parseFrom failure rest _ root = parseFrom failure rest (.mk name attrs (children ++ []) text :: below) root
    rw [List.append_nil]
  | node :: nodes, named, rest, top, below, root => by
    show parseFrom failure ((node.items ++ itemsAll nodes) ++ rest) _ root = _
    rw [List.append_assoc, parseFrom_node reads failure named.1, parseFrom_all reads failure named.2]
    obtain ⟨name, attrs, children, text⟩ := top
    show parseFrom failure rest (.mk name attrs ((children ++ [element node]) ++ elements nodes) text :: below)
      root = _
    rw [List.append_assoc]
    rfl

end

/-- **A document that is printed is parsed as its tree.** -/
theorem parse_document (reads : Reads reader) {root : String} {attrs : List (String × String)}
    {children : List Node} (plainRoot : Plain root) (distinct : (attrs.map Prod.fst).Nodup)
    (plain : ∀ attr ∈ attrs, Plain attr.1 ∧ Quotable attr.2)
    (named : AllNamed children) : parse (bytesOf (document root attrs children)) =
      .ok (.mk root attrs (children.map element) "") := by
  have attrs' : (attrs.map fun attr => (utf8 attr.1, some attr.2)).map
      (fun attr => (localName attr.1, attr.2.getD "")) = attrs := by
    rw [List.map_map]
    refine (List.map_congr_left fun attr member => ?_).trans (List.map_id attrs)
    show (localName (utf8 attr.1), attr.2) = attr
    rw [localName_plain (plain attr member).1]
  unfold parse
  rw [reads.finds root attrs children plainRoot distinct plain named]
  unfold documentItems
  dsimp only
  rw [parseFrom, parseFrom, parseFrom]
  rw [attrs', localName_plain plainRoot, parseFrom_all reads none named, ← elements_eq]
  rfl

end Parsed

end CloudTwin.Proto
