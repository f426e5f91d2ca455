import SignedDocs.Draft.Checks
import SignedDocs.Proofs.WebAddress

/-!
What the check of links reports of addresses.

* `Links.malformed_eq_ok`: the links that are no web addresses are found, in their order.
* `Draft.malformedLinks_eq`, `Draft.errors_checkLinks`: they are reported, one by one, before
  the aliases.
* `Links.malformed_outcome`: the search never fails, and its failure is never reported.
-/

namespace SignedDocs

namespace Links

/-- Links whose address is no web address, in the order of declaration. -/
def unfit (l : Links) : List String :=
  (l.addresses.entries.filter fun e => ¬WebAddress e.2).map Prod.fst

theorem malformed_eq_ok (l : Links) : l.malformed = .ok l.unfit := by
  have hfilter : (l.addresses.entries.filter fun e => !webPattern.occursIn e.2) =
      l.addresses.entries.filter fun e => ¬WebAddress e.2 := by
    refine List.filter_congr fun e _ => ?_
    rw [Bool.eq_iff_iff, decide_eq_true_eq, ← occursIn_webPattern, Bool.not_eq_true',
      Bool.not_eq_true]
  rw [malformed_eq, hfilter]
  rfl

end Links

namespace Draft

theorem malformedLinks_eq (l : Links) :
    malformedLinks l = l.unfit.map fun n => ⟨["documentationLinks", n], .notWebAddress⟩ := by
  unfold malformedLinks
  rw [Links.malformed_eq_ok]

theorem errors_checkLinks (d : Draft) : d.checkLinks.errors =
    (d.links.unfit.map fun n => ⟨["documentationLinks", n], .notWebAddress⟩) ++
      d.links.dangling.map fun e => ⟨["linkAKA", e.1], .danglingAlias e.2⟩ := by
  unfold checkLinks
  rw [Report.errors_ofErrors, malformedLinks_eq]

end Draft

/-- Looking for malformed links never fails: it finds, in their order, exactly the links whose
address is no web address. So the check of links reports these, each at its own place, then the
aliases that stand for nothing, and never that it could not look at the addresses. -/
theorem Links.malformed_outcome :
    (∀ l : Links, l.malformed =
      .ok ((l.addresses.entries.filter fun e => ¬WebAddress e.2).map Prod.fst)) ∧
    ∀ d : Draft,
      d.checkLinks.errors =
        ((d.links.addresses.entries.filter fun e => ¬WebAddress e.2).map fun e =>
          ⟨["documentationLinks", e.1], .notWebAddress⟩) ++
        d.links.dangling.map (fun e => ⟨["linkAKA", e.1], .danglingAlias e.2⟩) ∧
      ∀ i ∈ d.checkLinks.errors, ∀ fault, i.finding ≠ .uncheckedLinks fault := by
  refine ⟨malformed_eq_ok, fun d => ⟨?errors, ?unreported⟩⟩
  case errors =>
    rw [Draft.errors_checkLinks, unfit, List.map_map]
    rfl
  case unreported =>
    intro i hi fault hfault
    rw [Draft.errors_checkLinks, List.mem_append, List.mem_map, List.mem_map] at hi
    rcases hi with ⟨n, -, rfl⟩ | ⟨e, -, rfl⟩
    · cases hfault
    · cases hfault

/-- Scheme, first character and blanks. -/
example : WebAddress "https://a.b" ∧ ¬WebAddress "https:/a.b" ∧ ¬WebAddress "http://.b" ∧
    ¬WebAddress "http://a\nb" := by
  decide

end SignedDocs
