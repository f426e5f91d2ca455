import SignedDocs.Proofs.Acceptance
import SignedDocs.Proofs.ReferenceClosure
import SignedDocs.Proofs.Replacement

/-!
Resolving link names: in an accepted specification all names that are listed, and no others,
have an address.

* `Links.Sound`: links are web addresses and aliases stand for links. Without it an alias may be
  listed and lead nowhere.
* `Links.exists_address?_of_resolve?`: whatever name is resolved, the address is that of a link.
  An alias of an alias is not followed any further.
* `links_resolved`: names, addresses and their form on an accepted specification.
-/

namespace SignedDocs

namespace Links

/-- All links are web addresses, and all aliases stand for links. -/
structure Sound (l : Links) : Prop where
  addresses : ∀ name url, l.address? name = some url → WebAddress url
  aliases : ∀ name target, l.target? name = some target → target ∈ l.addresses.keys

variable {l : Links} {name target url : String}

theorem mem_names : name ∈ l.names ↔ name ∈ l.addresses.keys ∨ name ∈ l.aliases.keys := by
  unfold names
  rw [List.mem_mergeSort, List.mem_append]

/-- A link is not looked for among the aliases. -/
theorem resolve?_of_address? (h : l.address? name = some url) : l.resolve? name = some url := by
  unfold resolve?
  rw [h]
  rfl

/-- One step from an alias to a link, and no more. -/
theorem resolve?_of_target? (h : l.address? name = none) (ht : l.target? name = some target) :
    l.resolve? name = l.address? target := by
  unfold resolve?
  rw [h, ht]
  rfl

theorem resolve?_of_not_mem (h : name ∉ l.names) : l.resolve? name = none := by
  rw [mem_names, not_or] at h
  have haddress : l.address? name = none := Table.get?_eq_none_iff.mpr h.1
  have htarget : l.target? name = none := Table.get?_eq_none_iff.mpr h.2
  unfold resolve?
  rw [haddress, htarget]
  rfl

/-- An address is always that of a link. -/
theorem exists_address?_of_resolve? (h : l.resolve? name = some url) :
    ∃ link, l.address? link = some url := by
  unfold resolve? at h
  rcases Option.or_eq_some_iff.mp h with haddress | ⟨-, htarget⟩
  · exact ⟨name, haddress⟩
  · obtain ⟨target, -, haddress⟩ := Option.bind_eq_some_iff.mp htarget
    exact ⟨target, haddress⟩

/-- Every listed name has an address: of its own, or that of the link it stands for. -/
theorem Sound.exists_resolve? (h : l.Sound) (hname : name ∈ l.names) :
    ∃ url, l.resolve? name = some url := by
  cases haddress : l.address? name with
  | some url => exact ⟨url, resolve?_of_address? haddress⟩
  | none =>
    have halias : name ∈ l.aliases.keys :=
      (mem_names.mp hname).resolve_left (Table.get?_eq_none_iff.mp haddress)
    obtain ⟨target, htarget⟩ := Table.mem_keys_iff.mp halias
    obtain ⟨url, hurl⟩ := Table.mem_keys_iff.mp (h.aliases name target htarget)
    exact ⟨url, (resolve?_of_target? haddress htarget).trans hurl⟩

theorem Sound.isSome_resolve?_iff (h : l.Sound) (name : String) :
    (l.resolve? name).isSome ↔ name ∈ l.names := by
  constructor
  · intro hsome
    apply Classical.byContradiction
    intro hname
    rw [resolve?_of_not_mem hname] at hsome
    cases hsome
  · intro hname
    exact Option.isSome_iff_exists.mpr (h.exists_resolve? hname)

end Links

/-! ## Accepted specifications -/

theorem Draft.checkLinks_sound_iff {d : Draft} : d.checkLinks.errors = [] ↔ d.links.Sound := by
  rw [Draft.checkLinks_clean_iff]
  exact ⟨fun h => ⟨h.1, h.2⟩, fun h => ⟨h.addresses, h.aliases⟩⟩

namespace Specification

variable {s : Settings} {root : Json} {spec : Specification}

theorem links_sound [JsonSchema.Engine] (h : ofJson s root = .ok spec) :
    spec.content.links.Sound := by
  obtain ⟨d, -, hcoherent, -, hcontent, -⟩ := exists_of_ofJson_ok h
  rw [hcontent, Draft.links_primed]
  exact ⟨hcoherent.addresses, hcoherent.aliases⟩

/-- On an accepted specification a name has an address exactly if it is listed. That of a link is
its own, even if an alias has the same name; that of an alias is the one of the link it
stands for, even if this is an alias, too. All of them are web addresses of links, and the
check of links has nothing to say. -/
theorem links_resolved [JsonSchema.Engine] (h : ofJson s root = .ok spec) :
    (∀ name, (spec.content.links.resolve? name).isSome ↔ name ∈ spec.content.links.names) ∧
    (∀ name url, spec.content.links.address? name = some url →
      spec.content.links.resolve? name = some url) ∧
    (∀ name target, spec.content.links.address? name = none →
      spec.content.links.target? name = some target →
      ∃ url, spec.content.links.address? target = some url ∧
        spec.content.links.resolve? name = some url) ∧
    (∀ name url, spec.content.links.resolve? name = some url →
      WebAddress url ∧ ∃ link, spec.content.links.address? link = some url) ∧
    spec.content.checkLinks.errors = [] := by
  have hsound := links_sound h
  refine ⟨hsound.isSome_resolve?_iff, fun name url => Links.resolve?_of_address?, ?_, ?_,
    Draft.checkLinks_sound_iff.mpr hsound⟩
  · intro name target haddress htarget
    obtain ⟨url, hurl⟩ := Table.mem_keys_iff.mp (hsound.aliases name target htarget)
    exact ⟨url, hurl, (Links.resolve?_of_target? haddress htarget).trans hurl⟩
  · intro name url hurl
    obtain ⟨link, hlink⟩ := Links.exists_address?_of_resolve? hurl
    exact ⟨hsound.addresses link url hlink, link, hlink⟩

/-- Links with aliases: one alias has the name of a link, and another one stands for it. -/
def linkedReplies : Json :=
  (replies.replace ["documentationLinks"] (.object [("COSE", .string "https://cose"),
      ("sign", .string "http://sign")])).replace
    ["linkAKA"] (.object [("COSE", .string "sign"), ("hash", .string "COSE")])

/-- The name that is both leads to its own address, and so does the alias that stands for it. -/
theorem linkedReplies_resolved : ∃ spec, ofJson .default linkedReplies = .ok spec ∧
    spec.content.links.target? "COSE" = some "sign" ∧
    spec.content.links.resolve? "COSE" = some "https://cose" ∧
    spec.content.links.resolve? "hash" = some "https://cose" ∧
    WebAddress "https://cose" ∧
    (spec.content.links.resolve? "CBOR").isSome = false := by
  have hload : ofJson .default linkedReplies = .ok _ := rfl
  obtain ⟨hlisted, hlink, halias, haddress, -⟩ := links_resolved hload
  have hcose := hlink "COSE" "https://cose" rfl
  obtain ⟨url, hurl, hhash⟩ := halias "hash" "COSE" rfl rfl
  cases hurl
  refine ⟨_, hload, rfl, hcose, hhash, (haddress "hash" _ hhash).1, ?_⟩
  rw [← Bool.not_eq_true, hlisted, Links.mem_names]
  decide

end Specification

end SignedDocs
