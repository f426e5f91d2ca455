import SignedDocs.DocType
import SignedDocs.Proofs.MarkedParts
import SignedDocs.Proofs.Outcomes
import SignedDocs.Proofs.UuidTexts

/-!
What the texts of a document type tell about it.

* `marked_cbor`, `marked_markdown`: the texts of the identifiers stand between quotes and between
  backticks, in their order.
* `readMarked_cbor`, `readMarked_markdown`: read from there, they are the identifiers.
* `texts_lossless`: so each of the two texts belongs to one document type only.
-/

namespace SignedDocs

/-- The digits in diagnostic notation stand between quotes. -/
theorem Uuid.cbor_eq_mark (id : Uuid) : id.cbor = "37(h" ++ Text.mark '\x27' id.simple ++ ")" := by
  have hopening : "37(h'" = "37(h" ++ String.singleton '\x27' := rfl
  have hclosing : "')" = String.singleton '\x27' ++ ")" := rfl
  unfold Uuid.cbor Text.mark
  rw [hopening, hclosing]
  simp only [String.append_assoc]

namespace DocType

/-- The identifiers between marks of a text. -/
def readMarked (mark : Char) (s : String) : Except Uuid.Unfit (List Uuid) :=
  (Text.marked mark s).mapM Uuid.read

theorem marked_cbor (t : DocType) : Text.marked '\x27' t.cbor = t.ids.map Uuid.simple := by
  have hmark : ∀ id ∈ t.ids, '\x27' ∉ id.simple.toList := fun id _ => Uuid.notMem_simple rfl id
  have hitems : t.ids.map Uuid.cbor =
      t.ids.map fun id => "37(h" ++ Text.mark '\x27' id.simple ++ ")" :=
    List.map_congr_left fun id _ => Uuid.cbor_eq_mark id
  unfold cbor
  rw [hitems]
  exact Text.marked_join (by decide) (by decide) (by decide) hmark (by decide) (by decide)

theorem marked_markdown (t : DocType) :
    Text.marked '\x60' t.markdown = t.ids.map Uuid.hyphenated := by
  have hmark : ∀ id ∈ t.ids, '\x60' ∉ id.hyphenated.toList :=
    fun id _ => Uuid.notMem_hyphenated rfl (by decide) id
  have htext : t.markdown = "" ++ Text.join ",<br/>"
      (t.ids.map fun id => "" ++ Text.mark '\x60' id.hyphenated ++ "") ++ "" := by
    simp only [String.empty_append, String.append_empty]
    rfl
  rw [htext]
  exact Text.marked_join (by decide) (by decide) (by decide) hmark (by decide) (by decide)

theorem readMarked_cbor (t : DocType) : readMarked '\x27' t.cbor = .ok t.ids := by
  unfold readMarked
  rw [marked_cbor]
  exact mapM_map_ok fun id _ => Uuid.read_simple id

theorem readMarked_markdown (t : DocType) : readMarked '\x60' t.markdown = .ok t.ids := by
  unfold readMarked
  rw [marked_markdown]
  exact mapM_map_ok fun id _ => Uuid.read_hyphenated id

/-- What is found again in its texts is different in the texts of different types. -/
theorem injective_of_readMarked {text : DocType → String} {mark : Char}
    (h : ∀ t, readMarked mark (text t) = .ok t.ids) : Function.Injective text := by
  intro t u htext
  have hread : readMarked mark (text t) = .ok u.ids := by
    rw [htext, h]
  rw [h, Except.ok.injEq] at hread
  exact eq_iff_ids.mpr hread

/-- No text loses anything: an identifier is read from its grouped form and from the 32 digits of
its diagnostic notation; the identifiers of a type, however many, are read in their order from
the CBOR array and from the table cell, and each of these belongs to one type only. -/
theorem texts_lossless :
    (∀ id : Uuid, Uuid.read id.hyphenated = .ok id ∧
      ∃ digits, id.cbor = "37(h'" ++ digits ++ "')" ∧ digits.toList.length = 32 ∧
        (∀ c ∈ digits.toList, (Text.hexValue? c).isSome) ∧ Uuid.read digits = .ok id) ∧
    (∀ t : DocType, readMarked '\x27' t.cbor = .ok t.ids ∧
      readMarked '\x60' t.markdown = .ok t.ids) ∧
    Function.Injective cbor ∧ Function.Injective markdown := by
  refine ⟨?identifiers, ?types, ?_, ?_⟩
  case identifiers =>
    intro id
    refine ⟨Uuid.read_hyphenated id, id.simple, rfl, ?_, ?_, Uuid.read_simple id⟩
    · rw [Uuid.toList_simple, Uuid.length_digitChars]
    · rw [Uuid.toList_simple]
      exact fun _ => Uuid.isSome_of_mem_digitChars
  case types =>
    exact fun t => ⟨readMarked_cbor t, readMarked_markdown t⟩
  · exact injective_of_readMarked readMarked_cbor
  · exact injective_of_readMarked readMarked_markdown

end DocType

end SignedDocs
