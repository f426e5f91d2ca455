import Mathlib.Data.List.Nodup
import SignedDocs.Proofs.Outcomes
import SignedDocs.Settings

/-!
Texts of settings: which of them are refused, and what the others say.

* `Toml.Distinct`: no key stands twice. What a header or an assignment changes keeps to it, and so
  do all lines of a document (`Toml.distinct_parse`).
* `Settings.Says`: the entries are those of the settings, and all other settings have their
  defaults. One entry is set exactly if it has the name and the type of a setting (`set_ok_iff`).
* `ofToml_ok_iff`: a text has some settings exactly if it can be parsed and its entries say them.
* `ofToml_error_iff`: a text without settings cannot be parsed, or the first entry that is none of a
  setting is named: by its place and name if the name is unknown, else by the place of its value.
-/

namespace SignedDocs

/-! ## Keys of a document -/

namespace Toml

def names (es : Entries) : List String := es.map fun e => e.1.name

/-- No key stands twice. -/
def Distinct (es : Entries) : Prop := (names es).Nodup

/-- What the change makes of distinct keys is distinct. -/
def KeepsDistinct (change : Origin → Entries → Except Fault Entries) : Prop :=
  ∀ ⦃origin es es'⦄, Distinct es → change origin es = .ok es' → Distinct es'

section Changes

variable {es : Entries} {key : Key} {name : String} {node : Node}
  {change : Origin → Entries → Except Fault Entries} {path : List Key} {span : Span} {d d' : Draft}
  {cs rest : List Char} {total : Nat}

theorem find?_eq_none_iff : find? es name = none ↔ name ∉ names es := by
  simp [find?, names]

theorem names_replace : names (replace es name node) = names es := by
  unfold names replace
  rw [List.map_map]
  refine List.map_congr_left fun e _ => ?_
  show (if e.1.name = name then (e.1, node) else e).1.name = e.1.name
  split <;> rfl

theorem distinct_replace (h : Distinct es) : Distinct (replace es name node) := by
  unfold Distinct
  rwa [names_replace]

theorem distinct_concat (h : Distinct es) (hfree : key.name ∉ names es) :
    Distinct (es ++ [(key, node)]) := by
  have hnames : names (es ++ [(key, node)]) = names es ++ [key.name] := by
    simp [names]
  unfold Distinct
  rw [hnames, ← List.concat_eq_append]
  exact h.concat hfree

/-- On the way to the end of a path, a table is added under a free key or put in the place of one. -/
theorem keepsDistinct_descend {dotted : Bool} (h : KeepsDistinct change) :
    KeepsDistinct (descend dotted change path) := by
  intro origin es es' hes hrun
  cases path with
  | nil => exact h hes hrun
  | cons k ks =>
    unfold descend at hrun
    split at hrun
    case h_1 hfind =>
      obtain ⟨sub, -, hsub⟩ := bind_ok_iff.mp hrun
      cases hsub
      exact distinct_concat hes (find?_eq_none_iff.mp hfind)
    case h_2 =>
      split at hrun
      · cases hrun
      · obtain ⟨sub, -, hsub⟩ := bind_ok_iff.mp hrun
        cases hsub
        exact distinct_replace hes
    case h_3 =>
      obtain ⟨last, -, hlast⟩ := bind_ok_iff.mp hrun
      cases hlast
      exact distinct_replace hes
    case h_4 => cases hrun

theorem keepsDistinct_setKey {v : Value} : KeepsDistinct (setKey path key span v) := by
  refine keepsDistinct_descend ?_
  intro origin es es' hes hset
  dsimp only at hset
  split at hset
  · cases hset
  · split at hset
    · cases hset
    · next hfind =>
      cases hset
      exact distinct_concat hes (find?_eq_none_iff.mp hfind)

theorem keepsDistinct_openTable : KeepsDistinct (openTable key span) := by
  intro origin es es' hes hopen
  unfold openTable at hopen
  split at hopen
  · next hfind =>
    cases hopen
    exact distinct_concat hes (find?_eq_none_iff.mp hfind)
  · -- the table made on the way is taken out before it is put at the end
    cases hopen
    have hrest : Distinct (es.filter fun e => e.1.name != key.name) :=
      hes.sublist (List.filter_sublist.map _)
    refine distinct_concat hrest ?_
    simp [names]
  · cases hopen

theorem keepsDistinct_openNext : KeepsDistinct (openNext key span) := by
  intro origin es es' hes hopen
  unfold openNext at hopen
  split at hopen
  · next hfind =>
    cases hopen
    exact distinct_concat hes (find?_eq_none_iff.mp hfind)
  · cases hopen
    exact distinct_replace hes
  · cases hopen

/-! ## Lines of a document -/

theorem distinct_inCurrent (h : KeepsDistinct change) (hd : Distinct d.root)
    (hrun : d.inCurrent change = .ok d') : Distinct d'.root := by
  obtain ⟨root, hroot, hd'⟩ := bind_ok_iff.mp hrun
  cases hd'
  exact keepsDistinct_descend h hd hroot

theorem distinct_openHeader {next : Bool} (hd : Distinct d.root)
    (hrun : d.openHeader path key span next = .ok d') : Distinct d'.root := by
  obtain ⟨root, hroot, hd'⟩ := bind_ok_iff.mp hrun
  cases hd'
  cases next with
  | false => exact keepsDistinct_descend keepsDistinct_openTable hd hroot
  | true => exact keepsDistinct_descend keepsDistinct_openNext hd hroot

theorem distinct_header {start : List Char} {next : Bool} (hd : Distinct d.root)
    (hrun : header total start next cs d = .ok (d', rest)) : Distinct d'.root := by
  unfold header at hrun
  obtain ⟨⟨keys, after⟩, -, hrun⟩ := bind_ok_iff.mp hrun
  obtain ⟨inner, -, hrun⟩ := bind_ok_iff.mp hrun
  dsimp only at hrun
  split at hrun
  -- the header is opened in the same way behind one bracket and behind two
  all_goals
    obtain ⟨after, -, hrun⟩ := bind_ok_iff.mp hrun
    split at hrun
    · obtain ⟨opened, hopen, hopened⟩ := bind_ok_iff.mp hrun
      cases hopened
      exact distinct_openHeader hd hopen
    · cases hrun

theorem distinct_statement (hd : Distinct d.root)
    (hrun : statement total d cs = .ok (d', rest)) : Distinct d'.root := by
  unfold statement at hrun
  split at hrun
  · exact distinct_header hd hrun
  · exact distinct_header hd hrun
  · obtain ⟨⟨⟨keys, span, v⟩, after⟩, -, hrun⟩ := bind_ok_iff.mp hrun
    dsimp only at hrun
    split at hrun
    · obtain ⟨changed, hset, hchanged⟩ := bind_ok_iff.mp hrun
      cases hchanged
      exact distinct_inCurrent keepsDistinct_setKey hd hset
    · cases hrun

theorem distinct_statements {bound : Nat} (hd : Distinct d.root)
    (hrun : statements total bound d cs = .ok d') : Distinct d'.root := by
  induction bound generalizing d cs with
  | zero =>
    cases hrun
    exact hd
  | succ bound ih =>
    unfold statements at hrun
    obtain ⟨lines, -, hrun⟩ := bind_ok_iff.mp hrun
    split at hrun
    · cases hrun
      exact hd
    · obtain ⟨⟨changed, after⟩, hstatement, hrun⟩ := bind_ok_iff.mp hrun
      obtain ⟨after, -, hrun⟩ := bind_ok_iff.mp hrun
      exact ih (distinct_statement hd hstatement) hrun

end Changes

/-- A document with a key twice is none. -/
theorem distinct_parse {text : String} {es : Entries} (h : parse text = .ok es) : Distinct es := by
  obtain ⟨d, hd, hroot⟩ := bind_ok_iff.mp h
  cases hroot
  exact distinct_statements (d := .empty) List.nodup_nil hd

end Toml

/-! ## Settings -/

namespace Settings

open Toml (Key Node names)

/-- The setting with a name, as a value. -/
def value? (s : Settings) : String → Option Toml.Value
  | "document_reference_format" => some (.string s.referenceFormat)
  | "metadata_headers_definition" => some (.string s.metadataDefinition)
  | "document_headers_definition" => some (.string s.documentDefinition)
  | "signature_headers_definition" => some (.string s.signatureDefinition)
  | "validate_payload_examples" => some (.bool s.checkExamples)
  | _ => none

/-- The entry is one of the settings: their value stands under its name. -/
def Has (s : Settings) (e : Key × Node) : Prop :=
  ∃ span v, e.2 = .value span v ∧ s.value? e.1.name = some v

/-- All entries are settings, and what is not among them is as in `base`. -/
structure Says (base : Settings) (es : Toml.Entries) (s : Settings) : Prop where
  has : ∀ e ∈ es, s.Has e
  kept : ∀ name ∉ names es, s.value? name = base.value? name

variable {s t : Settings} {key : Key} {node : Node} {es : Toml.Entries} {text : String}

theorem ext_value (h : ∀ name, s.value? name = t.value? name) : s = t := by
  have hreference := h "document_reference_format"
  have hmetadata := h "metadata_headers_definition"
  have hdocument := h "document_headers_definition"
  have hsignature := h "signature_headers_definition"
  have hexamples := h "validate_payload_examples"
  cases s
  cases t
  cases hreference
  cases hmetadata
  cases hdocument
  cases hsignature
  cases hexamples
  rfl

theorem value?_eq_none_iff {name : String} : s.value? name = none ↔ name ∉ fields.names := by
  have hnames : fields.names = ["document_reference_format", "metadata_headers_definition",
      "document_headers_definition", "signature_headers_definition",
      "validate_payload_examples"] := rfl
  rw [hnames]
  unfold value?
  split <;> simp_all

/-! ## One entry -/

/-- The entry is that of some settings. -/
def Fits (e : Key × Node) : Prop := ∃ s : Settings, s.Has e

/-- There are no other names than those of the fields. -/
theorem not_fits_of_unknown {e : Key × Node} (h : e.1.name ∉ fields.names) : ¬Fits e := by
  rintro ⟨s, span, v, -, hv⟩
  rw [value?_eq_none_iff.mpr h] at hv
  cases hv

/-- The words for the type of a setting, if there is one with the name. -/
def typeWords (name : String) : Option String :=
  (default.value? name).map fun
    | .bool _ => "a boolean"
    | _ => "a string"

/-- What is reported of an entry that does not fit: the place of an unknown name, or that of a
value of another type. -/
def blame (e : Key × Node) : Fault :=
  match typeWords e.1.name with
  | none => .unfit e.1.span (.unknownField e.1.name fields.names)
  | some words => .unfit (found e.2).2 (.invalidType (found e.2).1 words)

/-- The settings `t` are `s` with another value under a name. -/
def Replaced (s : Settings) (name : String) (v : Toml.Value) (t : Settings) : Prop :=
  ∀ other, t.value? other = if other = name then some v else s.value? other

/-- Reading finds values of one kind, and reports everything else. -/
structure Reads {α : Type} (read : Node → Except Fault α) (make : α → Toml.Value)
    (words : String) : Prop where
  made : ∀ span a, read (.value span (make a)) = .ok a
  shape : ∀ node a, read node = .ok a → ∃ span, node = .value span (make a)
  fault : ∀ node fault, read node = .error fault →
    fault = .unfit (found node).2 (.invalidType (found node).1 words)

/-- The setting of the name has values of one kind, and is set to what is read. -/
structure Takes (s : Settings) (name : String) {α : Type} (make : α → Toml.Value)
    (words : String) (write : α → Settings) : Prop where
  kind : ∀ (t : Settings) v, t.value? name = some v → ∃ a, v = make a
  words : typeWords name = some words
  replaced : ∀ a, s.Replaced name (make a) (write a)

theorem reads_textValue : Reads textValue .string "a string" where
  made _ _ := rfl
  shape node text h := by
    unfold textValue at h
    split at h
    · cases h
      exact ⟨_, rfl⟩
    · cases h
  fault node fault h := by
    unfold textValue at h
    split at h
    · cases h
    · cases h
      rfl

theorem reads_flagValue : Reads flagValue .bool "a boolean" where
  made _ _ := rfl
  shape node flag h := by
    unfold flagValue at h
    split at h
    · cases h
      exact ⟨_, rfl⟩
    · cases h
  fault node fault h := by
    unfold flagValue at h
    split at h
    · cases h
    · cases h
      rfl

/-- A setting that is written under its own name only. -/
theorem takes_of {α : Type} {name words : String} {make : α → Toml.Value} {write : α → Settings}
    (get : Settings → α) (hvalue : ∀ t : Settings, t.value? name = some (make (get t)))
    (hwords : typeWords name = some words) (hget : ∀ a, get (write a) = a)
    (hothers : ∀ a other, other ≠ name → (write a).value? other = s.value? other) :
    s.Takes name make words write where
  kind t v h := ⟨get t, Option.some.inj (h.symm.trans (hvalue t))⟩
  words := hwords
  replaced a other := by
    split
    · next hname => rw [hname, hvalue, hget]
    · next hname => exact hothers a other hname

/-- Names of settings that are texts, the name of one that is a boolean, and unknown names. -/
theorem set_cases (s : Settings) (key : Key) (node : Node) :
    (∃ write, s.Takes key.name .string "a string" write ∧
      s.set key node = (textValue node).map write) ∨
    (∃ write, s.Takes key.name .bool "a boolean" write ∧
      s.set key node = (flagValue node).map write) ∨
    key.name ∉ fields.names ∧
      s.set key node = .error (.unfit key.span (.unknownField key.name fields.names)) := by
  obtain ⟨name, span⟩ := key
  unfold set
  dsimp only
  split
  case h_6 =>
    refine Or.inr (Or.inr ⟨(value?_eq_none_iff (s := s)).mp ?_, rfl⟩)
    unfold value?
    split <;> first | contradiction | rfl
  case' h_1 =>
    refine Or.inl ⟨_, takes_of referenceFormat (fun _ => rfl) rfl (fun _ => rfl) ?_,
      bind_pure_comp (fun text => { s with referenceFormat := text }) _⟩
  case' h_2 =>
    refine Or.inl ⟨_, takes_of metadataDefinition (fun _ => rfl) rfl (fun _ => rfl) ?_,
      bind_pure_comp (fun text => { s with metadataDefinition := text }) _⟩
  case' h_3 =>
    refine Or.inl ⟨_, takes_of documentDefinition (fun _ => rfl) rfl (fun _ => rfl) ?_,
      bind_pure_comp (fun text => { s with documentDefinition := text }) _⟩
  case' h_4 =>
    refine Or.inl ⟨_, takes_of signatureDefinition (fun _ => rfl) rfl (fun _ => rfl) ?_,
      bind_pure_comp (fun text => { s with signatureDefinition := text }) _⟩
  case' h_5 =>
    refine Or.inr (Or.inl ⟨_, takes_of checkExamples (fun _ => rfl) rfl (fun _ => rfl) ?_,
      bind_pure_comp (fun flag => { s with checkExamples := flag }) _⟩)
  -- what stands under the other names is left as it is
  all_goals
    intro a other hother
    unfold value?
    split <;> first | rfl | exact absurd rfl hother

section Taken

variable {α : Type} {read : Node → Except Fault α} {make : α → Toml.Value} {words : String}
  {write : α → Settings}

/-- The result of setting an entry is known by its values alone. -/
theorem set_ok_iff_of_takes (hr : Reads read make words) (ht : s.Takes key.name make words write)
    (hset : s.set key node = (read node).map write) :
    s.set key node = .ok t ↔
      t.Has (key, node) ∧ ∀ other ≠ key.name, t.value? other = s.value? other := by
  rw [hset, map_ok_iff]
  constructor
  · rintro ⟨a, ha, rfl⟩
    obtain ⟨span, rfl⟩ := hr.shape node a ha
    refine ⟨⟨span, make a, rfl, ?_⟩, fun other hother => ?_⟩
    · exact (ht.replaced a key.name).trans (if_pos rfl)
    · exact (ht.replaced a other).trans (if_neg hother)
  · rintro ⟨⟨span, v, rfl, hv⟩, hothers⟩
    obtain ⟨a, rfl⟩ := ht.kind t v hv
    refine ⟨a, hr.made span a, ext_value fun other => ?_⟩
    rw [ht.replaced a other]
    split
    · next hother => rw [hother]; exact hv.symm
    · next hother => exact (hothers other hother).symm

theorem set_error_of_takes (hr : Reads read make words) (ht : s.Takes key.name make words write)
    (hset : s.set key node = (read node).map write) {fault : Fault}
    (h : s.set key node = .error fault) : ¬Fits (key, node) ∧ fault = blame (key, node) := by
  rw [hset] at h
  cases hread : read node with
  | ok a =>
    rw [hread] at h
    cases h
  | error other =>
    rw [hread] at h
    cases h
    constructor
    · rintro ⟨t, span, v, rfl, hv⟩
      obtain ⟨a, rfl⟩ := ht.kind t v hv
      rw [hr.made span a] at hread
      cases hread
    · rw [hr.fault node _ hread, blame, ht.words]

end Taken

/-- An entry is set exactly if it is one of the result, and nothing else changes. -/
theorem set_ok_iff : s.set key node = .ok t ↔
    t.Has (key, node) ∧ ∀ other ≠ key.name, t.value? other = s.value? other := by
  rcases set_cases s key node with ⟨write, ht, hset⟩ | ⟨write, ht, hset⟩ | ⟨hunknown, hset⟩
  · exact set_ok_iff_of_takes reads_textValue ht hset
  · exact set_ok_iff_of_takes reads_flagValue ht hset
  · rw [hset]
    refine ⟨(nomatch ·), ?_⟩
    rintro ⟨hhas, -⟩
    exact absurd ⟨t, hhas⟩ (not_fits_of_unknown hunknown)

theorem set_error {fault : Fault} (h : s.set key node = .error fault) :
    ¬Fits (key, node) ∧ fault = blame (key, node) := by
  rcases set_cases s key node with ⟨write, ht, hset⟩ | ⟨write, ht, hset⟩ | ⟨hunknown, hset⟩
  · exact set_error_of_takes reads_textValue ht hset h
  · exact set_error_of_takes reads_flagValue ht hset h
  · rw [hset] at h
    cases h
    refine ⟨not_fits_of_unknown hunknown, ?_⟩
    have hwords : typeWords key.name = none := by
      rw [typeWords, value?_eq_none_iff.mpr hunknown]
      rfl
    rw [blame, hwords]

theorem exists_set_of_fits (s : Settings) {e : Key × Node} (h : Fits e) :
    ∃ t, s.set e.1 e.2 = .ok t := by
  cases hset : s.set e.1 e.2 with
  | ok t => exact ⟨t, rfl⟩
  | error fault => exact absurd h (set_error hset).1

/-! ## All entries -/

/-- The induction is on the entries, for any settings before them: as no name comes again, what the
first entry sets is kept by the others. -/
theorem foldlM_set_ok_iff (hd : Toml.Distinct es) :
    es.foldlM (fun s e => s.set e.1 e.2) s = .ok t ↔ Says s es t := by
  induction es generalizing s with
  | nil =>
    constructor
    · intro h
      cases h
      exact ⟨fun e he => absurd he List.not_mem_nil, fun _ _ => rfl⟩
    · intro h
      rw [ext_value fun name => h.kept name List.not_mem_nil]
      rfl
  | cons e es ih =>
    obtain ⟨hfirst, hrest⟩ := List.nodup_cons.mp hd
    rw [List.foldlM_cons, bind_ok_iff]
    constructor
    · rintro ⟨u, hu, hu'⟩
      obtain ⟨⟨span, v, hnode, hv⟩, hothers⟩ := set_ok_iff.mp hu
      obtain ⟨hhas, hkept⟩ := (ih hrest).mp hu'
      refine ⟨List.forall_mem_cons.mpr ⟨⟨span, v, hnode, ?_⟩, hhas⟩, fun name hname => ?_⟩
      · rw [hkept _ hfirst, hv]
      · obtain ⟨hne, hmem⟩ := List.ne_and_not_mem_of_not_mem_cons hname
        rw [hkept name hmem, hothers name hne]
    · rintro ⟨hhas, hkept⟩
      obtain ⟨hthis, hhas⟩ := List.forall_mem_cons.mp hhas
      obtain ⟨u, hu⟩ := exists_set_of_fits s ⟨t, hthis⟩
      refine ⟨u, hu, (ih hrest).mpr ⟨hhas, fun name hname => ?_⟩⟩
      obtain ⟨⟨span, v, hnode, hv⟩, hothers⟩ := set_ok_iff.mp hu
      by_cases hne : name = e.1.name
      · obtain ⟨span', v', hnode', hv'⟩ := hthis
        rw [hnode] at hnode'
        cases hnode'
        rw [hne, hv, hv']
      · rw [hothers name hne, hkept name (List.not_mem_cons_of_ne_of_not_mem hne hname)]

theorem exists_foldlM_set (s : Settings) (h : ∀ e ∈ es, Fits e) :
    ∃ t, es.foldlM (fun s e => s.set e.1 e.2) s = .ok t := by
  induction es generalizing s with
  | nil => exact ⟨s, rfl⟩
  | cons e es ih =>
    obtain ⟨hfirst, hrest⟩ := List.forall_mem_cons.mp h
    obtain ⟨u, hu⟩ := exists_set_of_fits s hfirst
    obtain ⟨t, ht⟩ := ih u hrest
    rw [List.foldlM_cons, hu]
    exact ⟨t, ht⟩

theorem ofToml_of_parse (h : Toml.parse text = .ok es) :
    ofToml text = es.foldlM (fun s e => s.set e.1 e.2) default := by
  unfold ofToml
  rw [h]
  rfl

theorem ofToml_of_parse_error {fault : Toml.Fault} (h : Toml.parse text = .error fault) :
    ofToml text = .error (.unreadable fault) := by
  unfold ofToml
  rw [h]
  rfl

/-- A text has the settings that its entries say, with the defaults for all others; so there are
none if it is malformed, if a name is unknown or stands twice, or if a value has another type. -/
theorem ofToml_ok_iff :
    ofToml text = .ok s ↔ ∃ es, Toml.parse text = .ok es ∧ Says default es s := by
  cases hparse : Toml.parse text with
  | error fault =>
    rw [ofToml_of_parse_error hparse]
    refine ⟨(nomatch ·), ?_⟩
    rintro ⟨es, hes, -⟩
    cases hes
  | ok es =>
    rw [ofToml_of_parse hparse, foldlM_set_ok_iff (Toml.distinct_parse hparse)]
    constructor
    · exact fun h => ⟨es, rfl, h⟩
    · rintro ⟨_, hes, h⟩
      cases hes
      exact h

/-- What is reported of a text that is refused: why it cannot be parsed, or its first entry that
does not fit. -/
theorem ofToml_error_iff {fault : Fault} : ofToml text = .error fault ↔
    (∃ unread, Toml.parse text = .error unread ∧ fault = .unreadable unread) ∨
    ∃ before e after, Toml.parse text = .ok (before ++ e :: after) ∧ (∀ b ∈ before, Fits b) ∧
      ¬Fits e ∧ fault = blame e := by
  constructor
  · intro h
    cases hparse : Toml.parse text with
    | error unread =>
      rw [ofToml_of_parse_error hparse] at h
      cases h
      exact Or.inl ⟨unread, rfl, rfl⟩
    | ok es =>
      rw [ofToml_of_parse hparse] at h
      obtain ⟨before, e, after, u, rfl, hbefore, he⟩ := exists_of_foldlM_error h
      have hdistinct : Toml.Distinct before :=
        (Toml.distinct_parse hparse).sublist ((List.sublist_append_left before _).map _)
      obtain ⟨hunfit, hfault⟩ := set_error he
      have hfits : ∀ b ∈ before, Fits b :=
        fun b hb => ⟨u, ((foldlM_set_ok_iff hdistinct).mp hbefore).has b hb⟩
      exact Or.inr ⟨before, e, after, rfl, hfits, hunfit, hfault⟩
  · rintro (⟨unread, hparse, rfl⟩ | ⟨before, e, after, hparse, hbefore, he, rfl⟩)
    · exact ofToml_of_parse_error hparse
    · obtain ⟨u, hu⟩ := exists_foldlM_set default hbefore
      rw [ofToml_of_parse hparse, List.foldlM_append, hu]
      show (u.set e.1 e.2 >>= fun u => after.foldlM (fun s e => s.set e.1 e.2) u) = _
      cases hset : u.set e.1 e.2 with
      | ok t => exact absurd ⟨t, (set_ok_iff.mp hset).1⟩ he
      | error fault => exact congrArg Except.error (set_error hset).2

end Settings

end SignedDocs
