import Mathlib.Data.List.Pairwise
import SignedDocs.Links

/-!
The order of link names: longest first.

* `LongestFirst`: the order said without sorting: nothing is lost or repeated, no name is
  longer than one before it, and names of one length stand as they were given.
* `LongestFirst.unique`: the names determine the order.
* `Links.longestFirst_mergeSort`: sorting by length gives this order.
* `Links.names_longest_first`: so whoever replaces the names in this order never meets a name
  inside a longer one.
-/

namespace SignedDocs

/-! ## Parts of texts -/

namespace Text

/-- The first text occurs in the second one. -/
def IsPart (part text : String) : Prop := ∃ before after, text = before ++ part ++ after

/-- It occurs there, and something is left. -/
def IsProperPart (part text : String) : Prop := IsPart part text ∧ part ≠ text

/-- What is left has bytes. -/
theorem IsProperPart.utf8ByteSize_lt {part text : String} (h : IsProperPart part text) :
    part.utf8ByteSize < text.utf8ByteSize := by
  obtain ⟨⟨before, after, rfl⟩, hne⟩ := h
  rw [String.utf8ByteSize_append, String.utf8ByteSize_append]
  apply Nat.lt_of_not_le
  intro hle
  have hbefore : before = "" := String.utf8ByteSize_eq_zero_iff.mp (by omega)
  have hafter : after = "" := String.utf8ByteSize_eq_zero_iff.mp (by omega)
  rw [hbefore, hafter, String.empty_append, String.append_empty] at hne
  exact hne rfl

end Text

/-! ## The order -/

/-- Names without a longer one behind them. -/
def Descending (names : List String) : Prop :=
  names.Pairwise fun a b => b.utf8ByteSize ≤ a.utf8ByteSize

/-- The names with a given number of bytes. -/
def namesOfSize (size : Nat) (names : List String) : List String :=
  names.filter fun n => n.utf8ByteSize == size

/-- All names, each as often as it was given, longest first; those of one length keep their
order. -/
structure LongestFirst (names order : List String) : Prop where
  perm : order.Perm names
  descending : Descending order
  stable : ∀ size, namesOfSize size order = namesOfSize size names

theorem mem_namesOfSize {size : Nat} {names : List String} {n : String} :
    n ∈ namesOfSize size names ↔ n ∈ names ∧ n.utf8ByteSize = size := by
  rw [namesOfSize, List.mem_filter, beq_iff_eq]

theorem namesOfSize_cons_self (n : String) (names : List String) :
    namesOfSize n.utf8ByteSize (n :: names) = n :: namesOfSize n.utf8ByteSize names :=
  List.filter_cons_of_pos (beq_self_eq_true _)

theorem namesOfSize_of_cons {size : Nat} {n : String} {names others : List String}
    (h : namesOfSize size (n :: names) = namesOfSize size (n :: others)) :
    namesOfSize size names = namesOfSize size others := by
  unfold namesOfSize at h ⊢
  rw [List.filter_cons, List.filter_cons] at h
  split at h
  · exact (List.cons.inj h).2
  · exact h

/-- The first name is a longest one. -/
theorem Descending.utf8ByteSize_le {first n : String} {rest : List String}
    (h : Descending (first :: rest)) (hn : n ∈ first :: rest) :
    n.utf8ByteSize ≤ first.utf8ByteSize := by
  rcases List.mem_cons.mp hn with rfl | hn
  · exact Nat.le_refl _
  · exact List.rel_of_pairwise_cons h hn

theorem mem_iff_of_sizes {names others : List String}
    (h : ∀ size, namesOfSize size names = namesOfSize size others) (n : String) :
    n ∈ names ↔ n ∈ others := by
  have hiff : n ∈ namesOfSize n.utf8ByteSize names ↔ n ∈ namesOfSize n.utf8ByteSize others := by
    rw [h]
  rwa [mem_namesOfSize, mem_namesOfSize, and_iff_left rfl, and_iff_left rfl] at hiff

/-- What agrees length by length agrees altogether: each list has a name of the length of
the other's first one, so that both first names have the same length, and then they are the
first ones of that length. -/
theorem Descending.eq_of_sizes {names others : List String} (h : Descending names)
    (h' : Descending others) (hsize : ∀ size, namesOfSize size names = namesOfSize size others) :
    names = others := by
  induction names generalizing others with
  | nil =>
    refine (List.eq_nil_iff_forall_not_mem.mpr ?_).symm
    intro n hn
    exact List.not_mem_nil ((mem_iff_of_sizes hsize n).mpr hn)
  | cons a names ih =>
    cases others with
    | nil => exact absurd ((mem_iff_of_sizes hsize a).mp List.mem_cons_self) List.not_mem_nil
    | cons b others =>
      have hlength : a.utf8ByteSize = b.utf8ByteSize := Nat.le_antisymm
        (h'.utf8ByteSize_le ((mem_iff_of_sizes hsize a).mp List.mem_cons_self))
        (h.utf8ByteSize_le ((mem_iff_of_sizes hsize b).mpr List.mem_cons_self))
      have hfirst := hsize a.utf8ByteSize
      rw [namesOfSize_cons_self, hlength, namesOfSize_cons_self] at hfirst
      obtain rfl : a = b := (List.cons.inj hfirst).1
      rw [ih (List.Pairwise.of_cons h) (List.Pairwise.of_cons h')
        fun size => namesOfSize_of_cons (hsize size)]

/-- The names determine the order. -/
theorem LongestFirst.unique {names order order' : List String} (h : LongestFirst names order)
    (h' : LongestFirst names order') : order = order' :=
  h.descending.eq_of_sizes h'.descending fun size => (h.stable size).trans (h'.stable size).symm

/-- No name is a proper part of a later one. -/
theorem Descending.pairwise_not_isProperPart {names : List String} (h : Descending names) :
    names.Pairwise fun a b => ¬Text.IsProperPart a b := by
  refine h.imp fun hle hpart => ?_
  exact absurd hpart.utf8ByteSize_lt (Nat.not_lt_of_le hle)

/-- All that a name is a proper part of stands before it. -/
theorem Descending.mem_before {before after : List String} {name long : String}
    (h : Descending (before ++ name :: after)) (hlong : long ∈ before ++ name :: after)
    (hpart : Text.IsProperPart name long) : long ∈ before := by
  rcases List.mem_append.mp hlong with hbefore | hlong
  · exact hbefore
  · have hle := Descending.utf8ByteSize_le (List.pairwise_append.mp h).2.1 hlong
    exact absurd hpart.utf8ByteSize_lt (Nat.not_lt_of_le hle)

/-! ## Names of links -/

namespace Links

theorem noShorter_iff {a b : String} : noShorter a b = true ↔ b.utf8ByteSize ≤ a.utf8ByteSize :=
  decide_eq_true_iff

theorem noShorter_trans (a b c : String) (hab : noShorter a b = true)
    (hbc : noShorter b c = true) : noShorter a c = true := by
  rw [noShorter_iff] at hab hbc ⊢
  exact Nat.le_trans hbc hab

theorem noShorter_total (a b : String) : (noShorter a b || noShorter b a) = true := by
  rw [Bool.or_eq_true, noShorter_iff, noShorter_iff]
  exact Nat.le_total _ _

/-- Names of one length are in order as they are, so sorting keeps them in that order; as
none is lost or added, they are all there is of that length. -/
theorem longestFirst_mergeSort (names : List String) :
    LongestFirst names (names.mergeSort noShorter) where
  perm := List.mergeSort_perm names noShorter
  descending := (List.pairwise_mergeSort noShorter_trans noShorter_total names).imp
    noShorter_iff.mp
  stable := by
    intro size
    have hsorted : (namesOfSize size names).Pairwise fun a b => noShorter a b = true := by
      refine List.pairwise_of_forall_mem_list ?_
      intro a ha b hb
      rw [noShorter_iff]
      exact Nat.le_of_eq ((mem_namesOfSize.mp hb).2.trans (mem_namesOfSize.mp ha).2.symm)
    have hkept : (namesOfSize size names).Sublist (names.mergeSort noShorter) :=
      List.sublist_mergeSort noShorter_trans noShorter_total hsorted List.filter_sublist
    have hsub :
        (namesOfSize size names).Sublist (namesOfSize size (names.mergeSort noShorter)) := by
      have hfiltered := hkept.filter fun n => n.utf8ByteSize == size
      unfold namesOfSize at hfiltered
      simp only [List.filter_filter, Bool.and_self] at hfiltered
      exact hfiltered
    refine (hsub.eq_of_length ?_).symm
    exact ((List.mergeSort_perm names noShorter).filter _).length_eq.symm

variable (l : Links)

/-- The names of links, longest first; among those of one length the links come before the
aliases, each as they were declared. No name is a proper part of a later one: in a text in
which the names before it do not occur any more, it is not met inside of a longer one. -/
theorem names_longest_first :
    LongestFirst (l.addresses.keys ++ l.aliases.keys) l.names ∧
    (∀ order, LongestFirst (l.addresses.keys ++ l.aliases.keys) order → order = l.names) ∧
    l.names.Pairwise (fun a b => ¬Text.IsProperPart a b) ∧
    ∀ before name after, l.names = before ++ name :: after →
      ∀ text, (∀ n ∈ before, ¬Text.IsPart n text) →
        ∀ long ∈ l.names, Text.IsProperPart name long → ¬Text.IsPart long text := by
  have hlongest : LongestFirst (l.addresses.keys ++ l.aliases.keys) l.names :=
    longestFirst_mergeSort _
  refine ⟨hlongest, fun order h => h.unique hlongest,
    hlongest.descending.pairwise_not_isProperPart, ?_⟩
  intro before name after hsplit text htext long hlong hpart
  have hdescending := hlongest.descending
  rw [hsplit] at hdescending hlong
  exact htext long (hdescending.mem_before hlong hpart)

/-- A name that is link and alias stands there twice. -/
example : (⟨⟨[("sign", "https://a"), ("COSE", "https://b"), ("COSE sign", "https://c")], by decide⟩,
    ⟨[("hash", "sign"), ("sign", "COSE")], by decide⟩⟩ : Links).names =
      ["COSE sign", "sign", "COSE", "hash", "sign"] := by cbv

end Links

end SignedDocs
