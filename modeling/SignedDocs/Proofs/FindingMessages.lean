import SignedDocs.Proofs.MarkedParts
import SignedDocs.Proofs.UuidTexts
import SignedDocs.Report.Finding

/-!
Messages of findings about names: which names they show.

* `Finding.shown`: the names in the message of a finding, in their order.
* `Finding.marked_message`: they are what stands between backticks in the message. So the message
  on a reused identifier shows the entry that has it, also behind the digits of the identifier.
-/

namespace SignedDocs.Finding

/-- The names in the message of a finding about names, in their order. -/
def shown : Finding → Option (List String)
  | .unknownFormat f => some [f]
  | .notMetadataHeader n => some [n]
  | .notProtectedHeader n => some [n]
  | .foreignPartner m => some [m]
  | .oneSided h m => some [h, m, m, h]
  | .ignoredTargets f => some ["type", f]
  | .danglingTarget t => some [t]
  | .linkNotHeader l => some [l]
  | .linkNotField l => some [l]
  | .linkNotReference l => some [l]
  | .linkUndefined t l f => some [t, l, f]
  | .danglingRequirement r => some [r]
  | .danglingFormat c => some [c]
  | .foreignMember d => some [d]
  | .claimedTwice d o => some [d, o]
  | .danglingAlias t => some [t]
  | .reusedId _ o => some [o]
  | _ => none

theorem code_eq (name : String) : code name = Text.mark '\x60' name := by
  unfold code Text.mark
  rfl

/-- Names without backticks are found again in the message, whatever else is in them. -/
theorem marked_message {finding : Finding} {names : List String} (h : finding.shown = some names)
    (hnames : ∀ name ∈ names, '\x60' ∉ name.toList) :
    Text.marked '\x60' finding.message = names := by
  cases finding
  all_goals cases h
  all_goals
    simp only [List.forall_mem_cons, List.not_mem_nil] at hnames
    unfold message
    dsimp only
    simp only [code_eq, String.append_assoc]
  case reusedId id owner =>
    have hid := Uuid.notMem_hyphenated (c := '\x60') (by decide) (by decide) id
    have hopening : '\x60' ∉ ("type id " ++ id.hyphenated ++
        " is already used by base type ").toList := by
      simp [hid]
    rw [← String.append_assoc, ← String.append_assoc]
    exact Text.marked_last hopening hnames.1
  case ignoredTargets f =>
    have hopening : "\x60type\x60 is ignored unless the format is " =
        Text.mark '\x60' "type" ++ " is ignored unless the format is " := by
      decide
    rw [hopening, String.append_assoc, Text.marked_first (by decide)]
    exact congrArg _ (Text.marked_last (by decide) hnames.2.1)
  -- in all others, names and constant texts take turns
  all_goals
    simp (disch := first | decide | simp only [hnames, not_false_eq_true]) only
      [Text.marked_piece, Text.marked_first, Text.marked_last, Text.marked_of_notMem]

end SignedDocs.Finding
