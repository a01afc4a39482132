/-
**The documents of S3, and tag sets** (`aws/s3/xmlutil.rs`).

The service writes these documents and reads them back. Texts at the leaves are trimmed when they are
read, but for the values of tags.

* `parseTagging`, `taggingXml` — the code.
* `rootXml_print`, `tagSet_print` — the trees that are printed; `filter_leaves`, the children of a name.
* `tag_sets_returned` — which tag sets are read back as they are: those that were read, among others.
-/

import CloudTwin.Proto.Xml
import CloudTwin.S3.Models

namespace CloudTwin.S3

open Lib Lib.Text Lib.Xml Proto

/-! ### Texts -/

def xmlns : String := "http://s3.amazonaws.com/doc/2006-03-01/"

def xmlDecl : String := "<?xml version=\"1.0\" encoding=\"UTF-8\"?>\n"

/-- `.collect::<String>()`. -/
def concat : List String → String
  | [] => ""
  | text :: rest => text ++ concat rest

/-- Build `<Name>text</Name>` with escaping. -/
def tag (name value : String) : String :=
  "<" ++ name ++ ">" ++ xmlEscape value ++ "</" ++ name ++ ">"

theorem concat_print {α : Type} (print : α → String) (node : α → Node) (items : List α)
    (same : ∀ item ∈ items, (print item).toList = (node item).print) :
    (concat (items.map print)).toList = printAll (items.map node) := by
  induction items with
  | nil => rfl
  | cons item rest ih =>
    show (print item ++ concat (rest.map print)).toList = (node item).print ++ printAll (rest.map node)
    rw [String.toList_append, same item List.mem_cons_self,
      ih fun other member => same other (List.mem_cons_of_mem _ member)]

theorem tag_print (name value : String) : (tag name value).toList = (Node.leaf name value).print := by
  have openText : "<".toList = ['<'] := rfl
  have endText : ">".toList = ['>'] := rfl
  have closeText : "</".toList = ['<', '/'] := rfl
  unfold tag Node.print openTag closeTag
  rw [xmlEscape_eq]
  simp only [String.toList_append, String.toList_ofList, openText, endText, closeText, List.append_assoc,
    List.cons_append, List.nil_append]

/-- What stands around the children of the root. -/
def rootXml (root inner : String) : String :=
  xmlDecl ++ "<" ++ root ++ " xmlns=\"" ++ xmlns ++ "\">" ++ inner ++ "</" ++ root ++ ">"

theorem rootXml_print {root inner : String} {children : List Node}
    (printed : inner.toList = printAll children) :
    (rootXml root inner).toList = document root [("xmlns", xmlns)] children := by
  have openText : "<".toList = ['<'] := rfl
  have endText : ">".toList = ['>'] := rfl
  have closeText : "</".toList = ['<', '/'] := rfl
  have attrText : " xmlns=\"".toList = ' ' :: ("xmlns".toList ++ ['=', '"']) := rfl
  have attrEnd : "\">".toList = ['"', '>'] := rfl
  have declared : xmlDecl.toList = openTag declaration.toList ++ ['\n'] := by decide
  unfold rootXml document openTag closeTag printAttrs
  unfold openTag at declared
  simp only [String.toList_append, printed, openText, endText, closeText, attrText, attrEnd, declared,
    List.flatMap_cons, List.flatMap_nil, List.append_assoc, List.cons_append, List.nil_append, List.append_nil]

theorem xmlns_plain : ∀ attr ∈ [("xmlns", xmlns)], Plain attr.1 ∧ Quotable attr.2 := by
  intro attr member
  rw [List.mem_singleton.mp member]
  exact ⟨plain_of_all (by decide), quotable_of_all (by decide)⟩

theorem trim_trim (text : String) : trim (trim text) = trim text := by
  obtain ⟨before, after, one, two, whole⟩ := Words.trimBy_spec (p := isWhitespace) text.toList
  have again := Words.trimBy_around one two (Words.trimBy isWhitespace text.toList)
  rw [← whole] at again
  unfold trim
  rw [String.toList_ofList]
  exact congrArg String.ofList again.symm

section Parse

variable [Reader]

/-- A root of the given name, or the error for documents that are not well-formed. -/
def parseRoot (root : String) (body : List UInt8) : S3Result Element :=
  match parse body with
  | .error _ => .error S3Error.malformedXml
  | .ok doc => if doc.name != root then .error S3Error.malformedXml else .ok doc

end Parse

theorem parseRoot_rootXml {reader : Reader} (reads : Reads reader) {root inner : String}
    {children : List Node} (plainRoot : Plain root) (named : AllNamed children)
    (printed : inner.toList = printAll children) :
    parseRoot root (utf8 (rootXml root inner)) = .ok (.mk root [("xmlns", xmlns)] (children.map element) "") := by
  have single : ([("xmlns", xmlns)].map Prod.fst).Nodup := List.nodup_singleton _
  have parsed := parse_document reads plainRoot single xmlns_plain named
  rw [← rootXml_print printed, bytesOf_toList] at parsed
  unfold parseRoot
  rw [parsed]
  dsimp only
  rw [show (Element.mk root [("xmlns", xmlns)] (children.map element) "").name = root from rfl,
    bne_self_eq_false, if_neg Bool.false_ne_true]

/-! ### Children of a name -/

/-- Leaves of one name. -/
def leaves (name : String) (texts : List String) : List Node := texts.map (.leaf name)

theorem allNamed_leaves {name : String} (plain : Plain name) (texts : List String) :
    AllNamed (leaves name texts) := by
  rw [allNamed_iff]
  intro node member
  obtain ⟨text, _, rfl⟩ := List.mem_map.mp member
  exact plain

theorem filter_leaves (name other : String) (texts : List String) :
    ((leaves name texts).map element).filter (fun child => child.name == other) =
      if name = other then texts.map fun text => .mk name [] [] text else [] := by
  unfold leaves
  rw [List.map_map, List.filter_map]
  by_cases same : name = other
  · have all : texts.filter ((fun child => child.name == other) ∘ element ∘ Node.leaf name) = texts :=
      List.filter_eq_self.mpr fun _ _ => beq_iff_eq.mpr same
    rw [if_pos same, all]
    rfl
  · have none' : texts.filter ((fun child => child.name == other) ∘ element ∘ Node.leaf name) = [] :=
      List.filter_eq_nil_iff.mpr fun _ _ here => same (beq_iff_eq.mp here)
    rw [if_neg same, none', List.map_nil]

/-- The first child of a name is the first of all of them. -/
theorem child_eq (element : Element) (name : String) :
    element.child name = (element.childrenNamed name).head? := by
  unfold Element.child Element.childrenNamed
  rw [List.head?_filter]

/-! ### Tag sets -/

/-- `validate_tags`. -/
def validateTags (tags : Tags) (max : Nat) : S3Result Unit :=
  if max < tags.length then
    .error (S3Error.new "BadRequest" ("Object tags cannot be greater than " ++ toString max))
  else tags.forM fun tag =>
    if tag.1.isEmpty ∨ 128 < tag.1.toList.length then
      .error ((S3Error.new "InvalidTag" "The TagKey you have provided is invalid").withField "TagKey" tag.1)
    else if 256 < tag.2.toList.length then
      .error ((S3Error.new "InvalidTag" "The TagValue you have provided is too long").withField "TagKey" tag.1)
    else .ok ()

/-- The loop of `parse_tagging` over the `Tag` elements. -/
def collectTags : List Element → Tags → S3Result Tags
  | [], tags => .ok tags
  | t :: rest, tags =>
    match t.childText "Key" with
    | none => .error S3Error.malformedXml
    | some k =>
      let v := ((t.child "Value").map Element.text).getD ""
      if tags.any fun tag => tag.1 == k then
        .error ((S3Error.new "InvalidTag" "Cannot provide multiple Tags with the same key").withField
          "TagKey" k)
      else collectTags rest (tags ++ [(k, v)])

/-- Parse `<Tagging><TagSet><Tag><Key/><Value/></Tag>...` into pairs. -/
def parseTagging [Reader] (body : List UInt8) : S3Result Tags := do
  let doc ← parseRoot "Tagging" body
  let tags ← (doc.child "TagSet").elim (.ok []) fun set => collectTags (set.childrenNamed "Tag") []
  validateTags tags 50
  return tags

def taggingXml (tags : Tags) : String :=
  rootXml "Tagging" ("<TagSet>" ++ concat (tags.map fun pair =>
    "<Tag>" ++ tag "Key" pair.1 ++ tag "Value" pair.2 ++ "</Tag>") ++ "</TagSet>")

def tagNode (pair : String × String) : Node :=
  .branch "Tag" [.leaf "Key" pair.1, .leaf "Value" pair.2]

theorem tagSet_print (tags : Tags) : ("<TagSet>" ++ concat (tags.map fun pair =>
    "<Tag>" ++ tag "Key" pair.1 ++ tag "Value" pair.2 ++ "</Tag>") ++ "</TagSet>").toList =
      printAll [.branch "TagSet" (tags.map tagNode)] := by
  have openSet : "<TagSet>".toList = openTag "TagSet".toList := rfl
  have closeSet : "</TagSet>".toList = closeTag "TagSet" := rfl
  have openTag' : "<Tag>".toList = openTag "Tag".toList := rfl
  have closeTag' : "</Tag>".toList = closeTag "Tag" := rfl
  have inner := concat_print (fun pair : String × String =>
    "<Tag>" ++ tag "Key" pair.1 ++ tag "Value" pair.2 ++ "</Tag>") tagNode tags fun pair _ => by
      rw [String.toList_append, String.toList_append, String.toList_append, tag_print, tag_print, openTag',
        closeTag']
      unfold tagNode
      simp only [Node.print, printAll, List.append_assoc, List.append_nil]
  rw [String.toList_append, String.toList_append, inner, openSet, closeSet]
  simp only [Node.print, printAll, List.append_assoc, List.append_nil]

theorem tags_named (tags : Tags) : AllNamed [.branch "TagSet" (tags.map tagNode)] := by
  refine ⟨⟨plain_of_all (by decide), allNamed_iff.mpr fun node member => ?_⟩, trivial⟩
  obtain ⟨pair, _, rfl⟩ := List.mem_map.mp member
  exact ⟨plain_of_all (by decide), plain_of_all (by decide),
    plain_of_all (by decide), trivial⟩

/-- **The tag sets that are read back as they are.** -/
structure Taggable (tags : Tags) : Prop where
  trimmed : ∀ pair ∈ tags, trim pair.1 = pair.1
  distinct : (tags.map Prod.fst).Nodup
  valid : validateTags tags 50 = .ok ()

def trimmedTags (tags : Tags) : Tags := tags.map fun pair => (trim pair.1, pair.2)

/-- What the loop accepts has no key twice, and only trimmed keys that it adds. -/
theorem collectTags_sound {elements : List Element} : ∀ {done all : Tags}, collectTags elements done = .ok all →
    (done.map Prod.fst).Nodup → (∀ pair ∈ done, trim pair.1 = pair.1) →
      (all.map Prod.fst).Nodup ∧ ∀ pair ∈ all, trim pair.1 = pair.1 := by
  induction elements with
  | nil =>
    intro done all collected nodup trimmed
    obtain rfl := Except.ok.inj collected
    exact ⟨nodup, trimmed⟩
  | cons t rest ih =>
    intro done all collected nodup trimmed
    unfold collectTags at collected
    split at collected
    · cases collected
    · rename_i k key
      split at collected
      · cases collected
      · rename_i fresh
        have absent : k ∉ done.map Prod.fst := by
          intro member
          obtain ⟨pair, inside, same⟩ := List.mem_map.mp member
          exact fresh (List.any_eq_true.mpr ⟨pair, inside, beq_iff_eq.mpr same⟩)
        have isTrimmed : trim k = k := by
          unfold Element.childText at key
          cases found : t.child "Key" with
          | none =>
            rw [found] at key
            cases key
          | some child =>
            rw [found] at key
            obtain rfl := Option.some.inj key
            exact trim_trim _
        refine ih collected ?_ ?_
        · rw [List.map_append, List.nodup_append]
          refine ⟨nodup, List.nodup_singleton _, fun one member other here => ?_⟩
          obtain rfl := List.mem_singleton.mp here
          exact fun same => absent (same ▸ member)
        · intro pair member
          rcases List.mem_append.mp member with old | new
          · exact trimmed pair old
          · rw [List.mem_singleton.mp new]
            exact isTrimmed

theorem collectTags_nodes (tags : Tags) : ∀ {done all : Tags}, (done.map Prod.fst).Nodup →
    (collectTags (tags.map fun pair => element (tagNode pair)) done = .ok all ↔
      all = done ++ trimmedTags tags ∧ ((done ++ trimmedTags tags).map Prod.fst).Nodup) := by
  induction tags with
  | nil =>
    intro done all nodup
    show (Except.ok done : S3Result Tags) = .ok all ↔ all = done ++ [] ∧ ((done ++ []).map Prod.fst).Nodup
    rw [List.append_nil]
    exact ⟨fun same => ⟨(Except.ok.inj same).symm, nodup⟩, fun same => congrArg Except.ok same.1.symm⟩
  | cons pair rest ih =>
    intro done all nodup
    have key : (element (tagNode pair)).childText "Key" = some (trim pair.1) := rfl
    have value : (element (tagNode pair)).child "Value" = some (.mk "Value" [] [] pair.2) := rfl
    have shape : done ++ trimmedTags (pair :: rest) = (done ++ [(trim pair.1, pair.2)]) ++ trimmedTags rest := by
      rw [List.append_assoc]
      rfl
    rw [List.map_cons, collectTags, key]
    dsimp only
    rw [value, shape]
    by_cases taken : (done.any fun tag => tag.1 == trim pair.1) = true
    · rw [if_pos taken]
      obtain ⟨other, inside, same⟩ := List.any_eq_true.mp taken
      refine ⟨fun same => (by cases same), fun fits => ?_⟩
      have apart := (List.nodup_append.mp (List.map_append ▸ fits.2)).1
      rw [List.map_append, List.nodup_append] at apart
      exact absurd (beq_iff_eq.mp same)
        (apart.2.2 _ (List.mem_map_of_mem inside) _ (List.mem_singleton_self _))
    · rw [if_neg taken]
      refine ih ?_
      rw [List.map_append, List.nodup_append]
      refine ⟨nodup, List.nodup_singleton _, fun one member other here same => ?_⟩
      obtain rfl := List.mem_singleton.mp here
      obtain ⟨old, inside, isOne⟩ := List.mem_map.mp member
      exact taken (List.any_eq_true.mpr ⟨old, inside, beq_iff_eq.mpr (isOne.trans same)⟩)

/-- What was read from a document is read back. -/
theorem accepted_taggable [Reader] {body : List UInt8} {tags : Tags} (read : parseTagging body = .ok tags) :
    Taggable tags := by
  unfold parseTagging at read
  cases root : parseRoot "Tagging" body with
  | error error =>
    rw [root] at read
    cases read
  | ok doc =>
    rw [root] at read
    change ((doc.child "TagSet").elim (.ok []) (fun set => collectTags (set.childrenNamed "Tag") []) >>= _) = _
      at read
    have sound : ∀ all, (doc.child "TagSet").elim (.ok [])
        (fun set => collectTags (set.childrenNamed "Tag") []) = (.ok all : S3Result Tags) →
          (all.map Prod.fst).Nodup ∧ ∀ pair ∈ all, trim pair.1 = pair.1 := by
      intro all found
      cases set : doc.child "TagSet" with
      | none =>
        rw [set] at found
        obtain rfl := Except.ok.inj found
        exact ⟨List.nodup_nil, fun _ member => absurd member List.not_mem_nil⟩
      | some set' =>
        rw [set] at found
        exact collectTags_sound found List.nodup_nil fun _ member => absurd member List.not_mem_nil
    cases found : ((doc.child "TagSet").elim (.ok [])
        (fun set => collectTags (set.childrenNamed "Tag") []) : S3Result Tags) with
    | error error =>
      rw [found] at read
      cases read
    | ok all =>
      rw [found] at read
      change (validateTags all 50 >>= fun _ => pure all) = .ok tags at read
      cases valid : validateTags all 50 with
      | error error =>
        rw [valid] at read
        cases read
      | ok done =>
        rw [valid] at read
        obtain rfl := Except.ok.inj read
        exact ⟨(sound all found).2, (sound all found).1, valid⟩

section Returned

variable {reader : Reader} (reads : Reads reader)

include reads

theorem parseTagging_xml (tags : Tags) : parseTagging (utf8 (taggingXml tags)) =
    (collectTags (tags.map fun pair => element (tagNode pair)) []).bind fun all =>
      (validateTags all 50).map fun _ => all := by
  have plainRoot : Plain "Tagging" := plain_of_all (by decide)
  have parsed := parseRoot_rootXml reads plainRoot (tags_named tags) (tagSet_print tags)
  have set : (Element.mk "Tagging" [("xmlns", xmlns)] [element (.branch "TagSet" (tags.map tagNode))] "").child
      "TagSet" = some (element (.branch "TagSet" (tags.map tagNode))) := rfl
  have children : (element (.branch "TagSet" (tags.map tagNode))).childrenNamed "Tag" =
      tags.map fun pair => element (tagNode pair) := by
    show (elements (tags.map tagNode)).filter _ = _
    rw [elements_eq, List.map_map, List.filter_eq_self.mpr]
    · rfl
    · intro child member
      obtain ⟨pair, _, rfl⟩ := List.mem_map.mp member
      rfl
  unfold parseTagging taggingXml
  rw [parsed, List.map_singleton]
  show ((Option.elim _ _ _ : S3Result Tags) >>= _) = _
  rw [set, Option.elim_some, children]
  cases collectTags (tags.map fun pair => element (tagNode pair)) [] with
  | error error => rfl
  | ok all =>
    show (validateTags all 50 >>= fun _ => pure all) = (validateTags all 50).map fun _ => all
    cases validateTags all 50 with
    | error error => rfl
    | ok _ => rfl

theorem tagging_returned (tags : Tags) :
    parseTagging (utf8 (taggingXml tags)) = .ok tags ↔ Taggable tags := by
  have collected := @collectTags_nodes tags [] tags List.nodup_nil
  rw [List.nil_append] at collected
  rw [parseTagging_xml reads]
  constructor
  · intro same
    cases all : collectTags (tags.map fun pair => element (tagNode pair)) [] with
    | error error =>
      rw [all] at same
      cases same
    | ok found =>
      rw [all] at same
      change (validateTags found 50).map (fun _ => found) = .ok tags at same
      cases valid : validateTags found 50 with
      | error error =>
        rw [valid] at same
        cases same
      | ok done =>
        rw [valid] at same
        obtain rfl := Except.ok.inj same
        obtain ⟨isTrimmed, distinct⟩ := collected.mp all
        refine ⟨fun pair member => ?_, ?_, valid⟩
        · have sound := collectTags_sound all List.nodup_nil fun _ member => absurd member List.not_mem_nil
          exact sound.2 pair member
        · rw [isTrimmed]
          exact distinct
  · intro taggable
    have isTrimmed : trimmedTags tags = tags := by
      refine (List.map_congr_left fun pair member => ?_).trans (List.map_id tags)
      show (trim pair.1, pair.2) = pair
      rw [taggable.trimmed pair member]
    rw [collected.mpr ⟨isTrimmed.symm, by rw [isTrimmed]; exact taggable.distinct⟩]
    show (validateTags tags 50).map (fun _ => tags) = .ok tags
    rw [taggable.valid]
    rfl

/-- **A tag set is returned as it is** if its keys are trimmed and distinct and it is valid; so it is
with every tag set that was read from a document. -/
theorem tag_sets_returned : (∀ tags, parseTagging (utf8 (taggingXml tags)) = .ok tags ↔ Taggable tags) ∧
    ∀ body tags, parseTagging body = .ok tags → parseTagging (utf8 (taggingXml tags)) = .ok tags :=
  ⟨tagging_returned reads, fun _ tags read => (tagging_returned reads tags).mpr (accepted_taggable read)⟩

end Returned

theorem tag_sets_returned_lexer :
    @parseTagging lexer (utf8 (taggingXml [("team", "a & b")])) = .ok [("team", "a & b")] :=
  ((tag_sets_returned lexer_reads).1 _).mpr ⟨by decide, by decide, by decide⟩

end CloudTwin.S3
