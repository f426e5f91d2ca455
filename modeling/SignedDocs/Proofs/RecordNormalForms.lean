import SignedDocs.Cluster
import SignedDocs.Cddl.Rule
import SignedDocs.Document
import SignedDocs.Media
import SignedDocs.Proofs.CodecLaws
import SignedDocs.Settings
import SignedDocs.ValueFormat

/-!
Normal forms of records: what is written for a record that was read is read as that record.

* `stable_codec`: the law for each kind of record, from those of its fields.
* `RecordKind`: all kinds that are read and written, with their codecs.
* `Codec.normalForm`: a value as its record is written. Other words, texts alone instead of lists,
  null or nothing for what is absent, arrays for objects and other texts of dates and identifiers
  have the same normal form exactly if they stand for the same record (`RecordKind.read_write`).
-/

namespace SignedDocs

open Codec

/-- A value as it is written once it was read. -/
def Codec.normalForm {α : Type} (c : Codec α) (v : Json) : Except ReadError Json :=
  (c.read v).map c.write

/-! ## Fields that are required, or have a default -/

namespace Fields

variable {α β : Type} {name : String} {codec : Codec α} {rest : Fields β}

theorem stable_required (h : codec.Stable) (hrest : rest.Stable) :
    (required name codec rest).Stable := by
  refine ⟨h, ?_, hrest⟩
  intro a ha
  cases ha

theorem stable_defaulted {value : α} (h : codec.Stable) (hvalue : codec.Keeps value)
    (hrest : rest.Stable) : (defaulted name codec value rest).Stable := by
  refine ⟨h, ?_, hrest⟩
  intro a ha
  cases ha
  exact hvalue

end Fields

open Fields

/-! ## Parts of records -/

theorem Codec.stable_text : text.Stable := stable_of_keeps keeps_text

theorem Codec.stable_flag : flag.Stable := stable_of_keeps keeps_flag

theorem Codec.stable_texts : (list text).Stable := stable_list stable_text

theorem Codec.stable_textOrList : textOrList.Stable := stable_of_keeps keeps_textOrList

theorem Codec.stable_optionalText : (optional text).Stable := stable_optional stable_text nofun

theorem Label.stable_codec : codec.Stable := by
  intro v l hread
  cases v with
  | string s =>
    cases hread
    rfl
  | number n =>
    cases n with
    | int n =>
      replace hread : (if IsSigned 63 n then Except.ok (Label.int n) else
        .error (ReadError.noAlternative "CoseLabel")) = .ok l := hread
      split at hread
      · rename_i hn
        cases hread
        exact if_pos hn
      · cases hread
    | real x => cases hread
  | _ => cases hread

theorem Label.write_ne_null (l : Label) : codec.write l ≠ .null := by
  cases l <;> exact nofun

theorem Presence.keeps_codec (p : Presence) : codec.Keeps p := by
  cases p <;> rfl

theorem PayloadSchema.keeps_codec (s : PayloadSchema) : codec.Keeps s := by
  cases s with
  | address url => rfl
  | inline schema =>
    show Except.ok (inline (Table.ofList schema.entries)) = _
    rw [Table.ofList_entries]

theorem PayloadSchema.write_ne_null (s : PayloadSchema) : codec.write s ≠ .null := by
  cases s <;> exact nofun

theorem DocType.stable_codec : codec.Stable := by
  intro v t hread
  replace hread : ((list uuid).read v).map mk = .ok t := hread
  show ((list uuid).read ((list uuid).write t.ids)).map mk = .ok t
  have hkeeps : (list uuid).Keeps t.ids := keeps_list fun id _ => keeps_uuid id
  rw [hkeeps]
  rfl

/-! ## Records -/

theorem Revision.stable_codec : codec.Stable := by
  refine stable_record (by decide) ?_ fun _ => rfl
  refine stable_required stable_text ?_
  refine stable_required (stable_of_keeps keeps_date) ?_
  exact stable_required stable_text trivial

theorem MediaType.stable_codec : codec.Stable := by
  refine stable_record (by decide) ?_ fun _ => rfl
  refine stable_required stable_text ?_
  exact stable_defaulted (stable_optional (stable_of_keeps keeps_natural32) nofun) rfl trivial

theorem ValueFormat.stable_codec : codec.Stable := by
  refine stable_record (by decide) ?_ fun _ => rfl
  refine stable_required stable_text ?_
  exact stable_required stable_text trivial

theorem ProtectedHeader.stable_codec : codec.Stable := by
  refine stable_record (by decide) ?_ fun _ => rfl
  refine stable_defaulted (stable_optional Label.stable_codec Label.write_ne_null) rfl ?_
  refine stable_required stable_text ?_
  refine stable_required (stable_of_keeps Presence.keeps_codec) ?_
  refine stable_required stable_text ?_
  refine stable_defaulted stable_textOrList rfl ?_
  exact stable_defaulted stable_textOrList rfl trivial

theorem MetadataField.stable_codec : codec.Stable := by
  refine stable_record (by decide) ?_ fun _ => rfl
  refine stable_defaulted (stable_optional Label.stable_codec Label.write_ne_null) rfl ?_
  refine stable_required stable_text ?_
  refine stable_required (stable_of_keeps Presence.keeps_codec) ?_
  refine stable_required stable_text ?_
  refine stable_defaulted stable_optionalText rfl ?_
  refine stable_defaulted stable_textOrList rfl ?_
  refine stable_defaulted (stable_optional stable_flag nofun) rfl ?_
  refine stable_defaulted stable_textOrList rfl ?_
  exact stable_defaulted stable_textOrList rfl trivial

theorem Cddl.Rule.stable_codec : codec.Stable := by
  refine stable_record (by decide) ?_ fun _ => rfl
  refine stable_required stable_text ?_
  refine stable_required stable_texts ?_
  refine stable_defaulted stable_optionalText rfl ?_
  exact stable_defaulted stable_optionalText rfl trivial

theorem Cluster.stable_recordCodec : recordCodec.Stable := by
  refine stable_record (by decide) ?_ fun _ => rfl
  exact stable_required stable_texts trivial

theorem PayloadExample.stable_codec : codec.Stable := by
  refine stable_record (by decide) ?_ fun _ => rfl
  refine stable_required stable_text ?_
  refine stable_required stable_text ?_
  exact stable_required (stable_of_keeps keeps_any) trivial

theorem Payload.stable_codec : codec.Stable := by
  refine stable_record (by decide) ?_ fun _ => rfl
  refine stable_required stable_text ?_
  refine stable_defaulted stable_flag rfl ?_
  refine stable_defaulted (stable_optional (stable_of_keeps PayloadSchema.keeps_codec)
    PayloadSchema.write_ne_null) rfl ?_
  exact stable_defaulted (stable_list PayloadExample.stable_codec) rfl trivial

theorem Roles.stable_codec : codec.Stable := by
  refine stable_record (by decide) ?_ fun _ => rfl
  refine stable_defaulted stable_texts rfl ?_
  exact stable_defaulted stable_texts rfl trivial

theorem UpdateRules.stable_codec : codec.Stable := by
  refine stable_record (by decide) ?_ fun _ => rfl
  refine stable_defaulted stable_flag rfl ?_
  refine stable_defaulted stable_optionalText rfl ?_
  exact stable_defaulted stable_optionalText rfl trivial

theorem Signers.stable_codec : codec.Stable := by
  refine stable_record (by decide) ?_ fun _ => rfl
  refine stable_required Roles.stable_codec ?_
  exact stable_defaulted UpdateRules.stable_codec rfl trivial

theorem BusinessLogic.stable_codec : codec.Stable := by
  refine stable_record (by decide) ?_ fun _ => rfl
  refine stable_defaulted stable_optionalText rfl ?_
  exact stable_defaulted stable_optionalText rfl trivial

theorem Copyright.stable_codec : codec.Stable := by
  refine stable_record (by decide) ?_ fun _ => rfl
  refine stable_required stable_text ?_
  refine stable_required stable_text ?_
  refine stable_required stable_text ?_
  refine stable_required (stable_of_keeps keeps_date) ?_
  exact stable_required (stable_list Revision.stable_codec) trivial

theorem Settings.stable_codec : codec.Stable := by
  refine stable_record (by decide) ?_ fun _ => rfl
  refine stable_defaulted stable_text rfl ?_
  refine stable_defaulted stable_text rfl ?_
  refine stable_defaulted stable_text rfl ?_
  refine stable_defaulted stable_text rfl ?_
  exact stable_defaulted stable_flag rfl trivial

/-! ## All kinds -/

/-- A kind of record that is read and written. -/
inductive RecordKind where
  | identifier
  | docType
  | presence
  | revision
  | mediaType
  | valueFormat
  | label
  | protectedHeader
  | metadataField
  | rule
  | cluster
  | payloadSchema
  | payloadExample
  | payload
  | roles
  | updateRules
  | signers
  | businessLogic
  | copyright
  | settings
deriving DecidableEq, Repr

namespace RecordKind

/-- What records of the kind are read as; rules, clusters, headers and fields without the name
they are declared under. -/
def Value : RecordKind → Type
  | .identifier => Uuid
  | .docType => DocType
  | .presence => Presence
  | .revision => Revision
  | .mediaType => MediaType
  | .valueFormat => ValueFormat
  | .label => Label
  | .protectedHeader => ProtectedHeader
  | .metadataField => MetadataField
  | .rule => Cddl.Rule
  | .cluster => List String
  | .payloadSchema => PayloadSchema
  | .payloadExample => PayloadExample
  | .payload => Payload
  | .roles => Roles
  | .updateRules => UpdateRules
  | .signers => Signers
  | .businessLogic => BusinessLogic
  | .copyright => Copyright
  | .settings => Settings

def codec : (k : RecordKind) → Codec k.Value
  | .identifier => .uuid
  | .docType => DocType.codec
  | .presence => Presence.codec
  | .revision => Revision.codec
  | .mediaType => MediaType.codec
  | .valueFormat => ValueFormat.codec
  | .label => Label.codec
  | .protectedHeader => ProtectedHeader.codec
  | .metadataField => MetadataField.codec
  | .rule => Cddl.Rule.codec
  | .cluster => Cluster.recordCodec
  | .payloadSchema => PayloadSchema.codec
  | .payloadExample => PayloadExample.codec
  | .payload => Payload.codec
  | .roles => Roles.codec
  | .updateRules => UpdateRules.codec
  | .signers => Signers.codec
  | .businessLogic => BusinessLogic.codec
  | .copyright => Copyright.codec
  | .settings => Settings.codec

theorem stable_codec (k : RecordKind) : k.codec.Stable := by
  cases k with
  | identifier => exact stable_of_keeps keeps_uuid
  | docType => exact DocType.stable_codec
  | presence => exact stable_of_keeps Presence.keeps_codec
  | revision => exact Revision.stable_codec
  | mediaType => exact MediaType.stable_codec
  | valueFormat => exact ValueFormat.stable_codec
  | label => exact Label.stable_codec
  | protectedHeader => exact ProtectedHeader.stable_codec
  | metadataField => exact MetadataField.stable_codec
  | rule => exact Cddl.Rule.stable_codec
  | cluster => exact Cluster.stable_recordCodec
  | payloadSchema => exact stable_of_keeps PayloadSchema.keeps_codec
  | payloadExample => exact PayloadExample.stable_codec
  | payload => exact Payload.stable_codec
  | roles => exact Roles.stable_codec
  | updateRules => exact UpdateRules.stable_codec
  | signers => exact Signers.stable_codec
  | businessLogic => exact BusinessLogic.stable_codec
  | copyright => exact Copyright.stable_codec
  | settings => exact Settings.stable_codec

/-- What is written for a record that was read is read as that record, and is the normal form of
exactly those values that stand for it. -/
theorem read_write {k : RecordKind} {v : Json} {r : k.Value} (h : k.codec.read v = .ok r) :
    k.codec.read (k.codec.write r) = .ok r ∧
    ∀ w, k.codec.normalForm w = .ok (k.codec.write r) ↔ k.codec.read w = .ok r := by
  have hkeeps : k.codec.Keeps r := k.stable_codec v r h
  refine ⟨hkeeps, ?_⟩
  intro w
  unfold normalForm
  cases hw : k.codec.read w with
  | error e => exact ⟨nofun, nofun⟩
  | ok s =>
    have hs : k.codec.Keeps s := k.stable_codec w s hw
    constructor
    · intro hwrite
      have hsame : k.codec.write s = k.codec.write r := Except.ok.inj hwrite
      unfold Keeps at hs
      rw [hsame, hkeeps] at hs
      exact hs.symm
    · intro hsame
      rw [Except.ok.inj hsame]
      rfl

/-- A field in few words: an array without its last parts, the other word for a required field,
one text for a list and null for what is absent. -/
def briefField : Json :=
  .array [.null, .string "", .string "yes", .string "Document Reference", .null, .string "letter"]

/-- The same field as an object. -/
def plainField : Json :=
  .object [("type", .array [.string "letter"]), ("format", .string "Document Reference"),
    ("required", .object [("required", .null)]), ("description", .string ""),
    ("exclusive", .null)]

theorem briefField_read_write : ∃ r : MetadataField,
    metadataField.codec.read briefField = .ok r ∧
    metadataField.codec.read (metadataField.codec.write r) = .ok r ∧
    metadataField.codec.normalForm plainField = .ok (metadataField.codec.write r) := by
  have hbrief : metadataField.codec.read briefField = .ok (_ : MetadataField) := rfl
  obtain ⟨hread, hnormal⟩ := read_write hbrief
  exact ⟨_, hbrief, hread, (hnormal plainField).mpr rfl⟩

end RecordKind

end SignedDocs
