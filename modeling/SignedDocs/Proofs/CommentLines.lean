import SignedDocs.Cddl.File
import SignedDocs.Proofs.Blanks
import SignedDocs.Proofs.Resolution

/-!
Comments of a CDDL file, line by line.

* `Notes`: comment lines that say a text. The comment on any text consists of such lines
  (`notes_comment`), whatever breaks its lines.
* `cut_renderRule`, `cut_renderFile`: the lines of a rule stand below those of its comment, the
  rules below the comment that describes the file, with empty lines between them.
* `grammar`: the lines that are neither empty nor comments. Those of a file are those of its rules
  (`grammar_renderFile`), so that no description is among them.
-/

namespace SignedDocs.Text

theorem cut_feed (s t : String) : cut '\n' (s ++ "\n" ++ t) = cut '\n' s ++ cut '\n' t :=
  cut_append '\n' s t

/-- The lines of a text between line feeds; an empty text has none. -/
def feedLines (s : String) : List String := if s = "" then [] else cut '\n' s

theorem feedLines_of_ne_empty {s : String} (h : s ≠ "") : feedLines s = cut '\n' s := if_neg h

end SignedDocs.Text

namespace SignedDocs.Cddl

open Text (cut feedLines)

/-! ## Comment lines -/

/-- A comment line without its semicolon and one space behind it. -/
def unmarked (line : String) : String :=
  match line.toList with
  | ';' :: ' ' :: rest => String.ofList rest
  | ';' :: rest => String.ofList rest
  | _ => line

/-- Comment lines that say a text: without their marks they are its lines, in their order, as far
as blanks at the ends do not count. Then it makes no difference whether carriage returns stand
before its line feeds. -/
structure Notes (text : String) (notes : List String) : Prop where
  marked : ∀ note ∈ notes, Text.startsWith note ";" = true
  lines : notes.map unmarked = (Text.lines (Text.trim text)).map Text.trimEnd
  feeds : notes ≠ [] → notes.map unmarked = (cut '\n' (Text.trim text)).map Text.trimEnd

/-- The mark loses its space if nothing follows it. -/
theorem commentLine_eq (line : String) : commentLine line =
    if Text.trimEnd line = "" then ";" else "; " ++ Text.trimEnd line :=
  Text.trimEnd_append "; " line

theorem startsWith_commentLine (line : String) :
    Text.startsWith (commentLine line) ";" = true := by
  rw [commentLine_eq]
  split
  · rfl
  · unfold Text.startsWith
    rw [String.toList_append]
    rfl

theorem unmarked_commentLine (line : String) : unmarked (commentLine line) = Text.trimEnd line := by
  rw [commentLine_eq]
  split
  case isTrue h =>
    rw [h]
    rfl
  case isFalse =>
    unfold unmarked
    rw [String.toList_append]
    exact String.ofList_toList

theorem notMem_commentLine {line : String} (h : '\n' ∉ line.toList) :
    '\n' ∉ (commentLine line).toList := by
  intro hfeed
  unfold commentLine at hfeed
  rw [Text.toList_trimEnd] at hfeed
  have hmem : '\n' ∈ ("; " ++ line).toList :=
    (List.rdropWhile_prefix Text.isBlank _).subset hfeed
  rw [String.toList_append] at hmem
  rcases List.mem_append.mp hmem with hmark | hline
  · exact absurd hmark (by decide)
  · exact h hline

/-! ## Comments -/

/-- The comment lines on a text. -/
def commentLines (text : String) : List String := (Text.lines (Text.trim text)).map commentLine

theorem commentLines_eq_nil_iff {text : String} :
    commentLines text = [] ↔ Text.trim text = "" := by
  rw [commentLines, List.map_eq_nil_iff, Text.lines_eq_nil_iff]

theorem cut_comment {text : String} (h : commentLines text ≠ []) :
    cut '\n' (comment text) = commentLines text := by
  have hfeed : ∀ note ∈ commentLines text, '\n' ∉ note.toList := by
    intro note hnote
    obtain ⟨line, hline, rfl⟩ := List.mem_map.mp hnote
    exact notMem_commentLine (Text.notMem_of_mem_lines hline)
  have hjoin : comment text = Text.join "\n" (commentLines text) := rfl
  rw [hjoin]
  exact Text.cut_join h hfeed

theorem comment_eq_empty_iff {text : String} : comment text = "" ↔ Text.trim text = "" := by
  rw [← commentLines_eq_nil_iff]
  constructor
  · intro h
    by_contra hne
    -- an empty comment has one piece, and no comment line is empty
    have hnote : "" ∈ commentLines text := by
      rw [← cut_comment hne, h]
      exact List.mem_singleton_self ""
    obtain ⟨line, -, hline⟩ := List.mem_map.mp hnote
    have hmark := startsWith_commentLine line
    rw [hline] at hmark
    cases hmark
  · intro h
    show Text.join "\n" (commentLines text) = ""
    rw [h]
    rfl

theorem feedLines_comment (text : String) : feedLines (comment text) = commentLines text := by
  by_cases h : Text.trim text = ""
  · rw [comment_eq_empty_iff.mpr h, commentLines_eq_nil_iff.mpr h]
    rfl
  · rw [Text.feedLines_of_ne_empty fun hc => h (comment_eq_empty_iff.mp hc)]
    exact cut_comment fun hn => h (commentLines_eq_nil_iff.mp hn)

theorem comment_trim (text : String) : comment (Text.trim text) = comment text := by
  unfold comment
  rw [Text.trim_trim]

/-- A comment says its text. -/
theorem notes_comment (text : String) : Notes text (feedLines (comment text)) := by
  have hline : ∀ line ∈ Text.lines (Text.trim text),
      (unmarked ∘ commentLine) line = Text.trimEnd line := by
    intro line _
    rw [Function.comp_apply, unmarked_commentLine]
  have hlines : (commentLines text).map unmarked =
      (Text.lines (Text.trim text)).map Text.trimEnd := by
    rw [commentLines, List.map_map]
    exact List.map_congr_left hline
  rw [feedLines_comment]
  refine ⟨?_, hlines, ?_⟩
  · intro note hnote
    obtain ⟨line, -, rfl⟩ := List.mem_map.mp hnote
    exact startsWith_commentLine line
  · intro hne
    rw [hlines]
    exact Text.map_trimEnd_lines (Text.closes_trim fun h => hne (commentLines_eq_nil_iff.mpr h))

/-! ## Rules -/

/-- The rule of a definition without its comment. -/
def ruleText (d : Definition) : String := d.name ++ " = " ++ Text.trim d.rule.body

theorem visible?_some (text : String) :
    visible? (some text) = if Text.trim text = "" then none else some (Text.trim text) := by
  unfold visible?
  by_cases h : Text.trim text = ""
  · simp [h]
  · simp [h]

theorem renderRule_eq (d : Definition) : renderRule d =
    if comment (d.rule.comment.getD "") = "" then ruleText d
    else comment (d.rule.comment.getD "") ++ "\n" ++ ruleText d := by
  unfold renderRule
  cases d.rule.comment with
  | none => rfl
  | some text =>
    rw [visible?_some, Option.getD_some]
    by_cases h : Text.trim text = ""
    · rw [if_pos h, if_pos (comment_eq_empty_iff.mpr h)]
      rfl
    · rw [if_neg h, if_neg fun hc => h (comment_eq_empty_iff.mp hc), ← comment_trim text]
      rfl

/-- The lines of a comment stand above those of its rule. -/
theorem cut_renderRule (d : Definition) : cut '\n' (renderRule d) =
    feedLines (comment (d.rule.comment.getD "")) ++ cut '\n' (ruleText d) := by
  rw [renderRule_eq]
  split
  case isTrue h =>
    rw [h]
    rfl
  case isFalse h =>
    rw [Text.feedLines_of_ne_empty h, Text.cut_feed]

/-! ## Files -/

/-- What a file with a definition at its root says of itself: the description of the definition, or
the name of the root. -/
def heading (root : String) (d : Definition) : String :=
  (visible? d.rule.description).getD root

theorem renderFile_cons (root : String) (d : Definition) (rest : List Definition) :
    renderFile root (d :: rest) = comment (heading root d) ++ "\n" ++ ("" ++ "\n" ++ ("" ++ "\n" ++
      (Text.join "\n\n" ((d :: rest).map renderRule) ++ "\n" ++ ""))) := by
  unfold renderFile heading
  simp only [String.append_assoc, String.empty_append, String.append_empty]
  rfl

theorem join_blocks (block next : String) (blocks : List String) :
    Text.join "\n\n" (block :: next :: blocks) =
      block ++ "\n" ++ ("" ++ "\n" ++ Text.join "\n\n" (next :: blocks)) := by
  have hfeeds : "\n\n" = "\n" ++ "\n" := rfl
  rw [Text.join_cons_cons]
  nth_rewrite 1 [hfeeds]
  simp only [String.append_assoc, String.empty_append]

theorem cut_join_blocks (block : String) (blocks : List String) :
    cut '\n' (Text.join "\n\n" (block :: blocks)) =
      [""].intercalate ((block :: blocks).map (cut '\n')) := by
  induction blocks generalizing block with
  | nil => simp [Text.join]
  | cons next blocks ih =>
    rw [join_blocks, Text.cut_feed, Text.cut_feed, ih next, List.map_cons, List.map_cons,
      List.map_cons, List.intercalate_cons_cons, List.append_assoc]
    rfl

/-- The description of a file stands above its rules. -/
theorem cut_renderFile (root : String) (d : Definition) (rest : List Definition) :
    cut '\n' (renderFile root (d :: rest)) = cut '\n' (comment (heading root d)) ++ ["", ""] ++
      [""].intercalate ((d :: rest).map fun e => cut '\n' (renderRule e)) ++ [""] := by
  have hempty : cut '\n' "" = [""] := rfl
  rw [renderFile_cons, Text.cut_feed, Text.cut_feed, Text.cut_feed, Text.cut_feed, hempty,
    List.map_cons, cut_join_blocks, ← List.map_cons, List.map_map]
  simp [Function.comp_def]

/-! ## Grammar -/

/-- The line is neither empty nor a comment. -/
def isGrammar (line : String) : Bool := !(line.isEmpty || Text.startsWith line ";")

/-- The lines of a text that are neither empty nor comments. -/
def grammar (text : String) : List String := (cut '\n' text).filter isGrammar

theorem grammar_append (s t : String) : grammar (s ++ "\n" ++ t) = grammar s ++ grammar t := by
  rw [grammar, Text.cut_feed, List.filter_append]
  rfl

theorem Notes.filter_isGrammar {text : String} {notes : List String} (h : Notes text notes) :
    notes.filter isGrammar = [] := by
  rw [List.filter_eq_nil_iff]
  intro note hnote
  simp [isGrammar, h.marked note hnote]

theorem grammar_comment (text : String) : grammar (comment text) = [] := by
  by_cases h : comment text = ""
  · rw [h]
    rfl
  · rw [grammar, ← Text.feedLines_of_ne_empty h]
    exact (notes_comment text).filter_isGrammar

theorem grammar_renderRule (d : Definition) : grammar (renderRule d) = grammar (ruleText d) := by
  rw [grammar, cut_renderRule, List.filter_append, (notes_comment _).filter_isGrammar]
  rfl

theorem grammar_join_blocks (blocks : List String) :
    grammar (Text.join "\n\n" blocks) = blocks.flatMap grammar := by
  induction blocks with
  | nil => rfl
  | cons block blocks ih =>
    cases blocks with
    | nil => simp [Text.join]
    | cons next blocks =>
      rw [join_blocks, grammar_append, grammar_append, ih]
      rfl

theorem grammar_renderFile (root : String) (d : Definition) (rest : List Definition) :
    grammar (renderFile root (d :: rest)) = (d :: rest).flatMap fun e => grammar (ruleText e) := by
  have hempty : grammar "" = [] := rfl
  rw [renderFile_cons, grammar_append, grammar_append, grammar_append, grammar_append,
    grammar_comment, hempty, grammar_join_blocks, List.flatMap_map]
  simp [grammar_renderRule]

/-- No description gets into a grammar. The comment on any text consists of comment lines that say
the text, and is empty only if all of the text is blank. Such lines stand above the rule of a
definition, and above the rules of a file; what is left of a file without comments and empty lines
is the rules of its definitions. -/
theorem descriptions_commented :
    (∀ text, Notes text (feedLines (comment text)) ∧
      (comment text = "" ↔ ∀ c ∈ text.toList, Text.isBlank c = true)) ∧
    (∀ d, cut '\n' (renderRule d) =
      feedLines (comment (d.rule.comment.getD "")) ++ cut '\n' (ruleText d)) ∧
    ∀ (r : Registry) (root file : String), r.file root = .ok file → ∃ d rest,
      r.get root = .ok d ∧ r.resolve root = .ok (d :: rest) ∧
      cut '\n' file = cut '\n' (comment (heading root d)) ++ ["", ""] ++
        [""].intercalate ((d :: rest).map fun e => cut '\n' (renderRule e)) ++ [""] ∧
      grammar file = (d :: rest).flatMap fun e => grammar (ruleText e) := by
  refine ⟨fun text => ⟨notes_comment text, ?_⟩, cut_renderRule, ?_⟩
  · rw [comment_eq_empty_iff, Text.trim_eq_empty_iff]
    exact List.dropWhile_eq_nil_iff
  · intro r root file h
    obtain ⟨order, horder, rfl⟩ := map_ok_iff.mp h
    obtain ⟨d, rest, hd, rfl⟩ := Registry.exists_of_resolve_ok horder
    exact ⟨d, rest, hd, horder, cut_renderFile root d rest, grammar_renderFile root d rest⟩

/-- Letters and their texts, with descriptions on several lines. -/
def annotatedRegistry : Registry := .ofRules
  ⟨[("letter", ⟨"[* text]", ["text"], some "Letters\r\n\r\n of people\n", some " \t"⟩),
    ("text", ⟨"tstr", [], none, some "Not any more:\ntext = bytes"⟩)], by decide⟩

/-- A rule in a comment is no rule of the file. -/
theorem annotatedRegistry_file :
    ∃ file, annotatedRegistry.file "letter" = .ok file ∧
      file = "; Letters\n;\n;  of people\n\n\nletter = [* text]\n\n; Not any more:\n" ++
        "; text = bytes\ntext = tstr\n" ∧
      grammar file = ["letter = [* text]", "text = tstr"] := by
  have hfile : annotatedRegistry.file "letter" = .ok _ := rfl
  obtain ⟨d, rest, -, hresolve, -, hgrammar⟩ := descriptions_commented.2.2 _ _ _ hfile
  cases hresolve
  exact ⟨_, hfile, rfl, hgrammar.trans rfl⟩

end SignedDocs.Cddl
