import SignedDocs.Proofs.DateTexts
import SignedDocs.Proofs.Outcomes
import SignedDocs.Proofs.TableExtension
import SignedDocs.Proofs.UuidTexts
import SignedDocs.Record.Codec

/-!
Laws of codecs: a value that could be read is written so that it is read again.

* `Codec.Keeps`: what is written for a value is read as that value.
* `Codec.Stable`: so it is for every value that can be read at all.
* Scalars and containers; a container keeps what its codec keeps. One codec reads more than it
  writes: a text alone is the list of it, and null the empty list (`read_textOrList_ok_iff`).
* `stable_record`: a record is stable if its fields are and have names of their own. The law is
  proved over the description of the fields, not for each record.
-/

namespace SignedDocs

/-! ## Keeping values -/

namespace Codec

variable {α β : Type}

/-- What is written for the value is read as the value. -/
def Keeps (c : Codec α) (a : α) : Prop := c.read (c.write a) = .ok a

/-- Every value that can be read is kept. -/
def Stable (c : Codec α) : Prop := ∀ v a, c.read v = .ok a → c.Keeps a

theorem stable_of_keeps {c : Codec α} (h : ∀ a, c.Keeps a) : c.Stable := fun _ a _ => h a

/-! ## Scalars -/

theorem keeps_any (v : Json) : any.Keeps v := rfl

theorem keeps_text (s : String) : text.Keeps s := rfl

theorem keeps_flag (b : Bool) : flag.Keeps b := rfl

theorem keeps_natural32 (n : Natural32) : natural32.Keeps n := by
  have hsmall : (n.val : Int).toNat < Nat.pow 2 32 := by
    rw [Int.toNat_natCast]
    exact n.isLt
  have hpositive : 0 ≤ (n.val : Int) := Int.natCast_nonneg _
  show dite _ _ _ = _
  rw [dif_pos hsmall, if_pos hpositive]
  simp only [Int.toNat_natCast]

theorem keeps_date (d : Date) : date.Keeps d := by
  unfold Keeps date
  simp only [Date.parse_render]
  rfl

theorem keeps_uuid (id : Uuid) : uuid.Keeps id := by
  unfold Keeps uuid
  simp only [Uuid.read_hyphenated]
  rfl

/-! ## Containers -/

theorem keeps_list {c : Codec α} {as : List α} (h : ∀ a ∈ as, c.Keeps a) : (list c).Keeps as := by
  show (as.map c.write).mapM c.read = .ok as
  exact mapM_map_ok h

theorem stable_list {c : Codec α} (h : c.Stable) : (list c).Stable := by
  intro v as hread
  cases v with
  | array items =>
    refine keeps_list ?_
    intro a ha
    obtain ⟨v, -, hv⟩ := exists_of_mem_mapM hread ha
    exact h v a hv
  | _ => cases hread

/-- Null stands for absence, so that no value may be written as null. -/
theorem keeps_optional {c : Codec α} (hnull : ∀ a, c.write a ≠ .null) {a : Option α}
    (h : ∀ b ∈ a, c.Keeps b) : (optional c).Keeps a := by
  cases a with
  | none => rfl
  | some b =>
    have hread : c.read (c.write b) = .ok b := h b rfl
    show (optional c).read (c.write b) = .ok (some b)
    cases hw : c.write b with
    | null => exact absurd hw (hnull b)
    | _ =>
      rw [hw] at hread
      show (c.read _).map some = _
      rw [hread]
      rfl

theorem stable_optional {c : Codec α} (h : c.Stable) (hnull : ∀ a, c.write a ≠ .null) :
    (optional c).Stable := by
  intro v a hread
  refine keeps_optional hnull ?_
  rintro b rfl
  have hread : (c.read v).map some = .ok (some b) := by
    cases v with
    | null => cases hread
    | _ => exact hread
  cases hv : c.read v with
  | error e =>
    rw [hv] at hread
    cases hread
  | ok a =>
    rw [hv] at hread
    cases hread
    exact h v b hv

theorem texts?_map_string (ss : List String) : texts? (ss.map .string) = some ss := by
  induction ss with
  | nil => rfl
  | cons s ss ih =>
    unfold texts? at ih ⊢
    rw [List.map_cons, List.mapM_cons, ih]
    rfl

theorem texts?_eq_some_iff {items : List Json} {ss : List String} :
    texts? items = some ss ↔ items = ss.map .string := by
  refine ⟨fun h => ?_, fun h => h ▸ texts?_map_string ss⟩
  induction items generalizing ss with
  | nil =>
    cases h
    rfl
  | cons item items ih =>
    unfold texts? at h ih
    rw [List.mapM_cons] at h
    obtain ⟨s, hs, h⟩ := Option.bind_eq_some_iff.mp h
    obtain ⟨rest, hrest, h⟩ := Option.bind_eq_some_iff.mp h
    cases h
    rw [List.map_cons, ← ih hrest]
    split at hs
    · cases hs
      rfl
    · cases hs

/-- A text alone is read as the list of it, and null as the empty list; of all else only a list of
texts is read. -/
theorem read_textOrList_ok_iff {v : Json} {ss : List String} : textOrList.read v = .ok ss ↔
    v = .null ∧ ss = [] ∨ (∃ s, v = .string s ∧ ss = [s]) ∨ v = .array (ss.map .string) := by
  constructor
  · intro h
    unfold textOrList at h
    dsimp only at h
    split at h
    · cases h
      exact Or.inl ⟨rfl, rfl⟩
    · cases h
      exact Or.inr (Or.inl ⟨_, rfl, rfl⟩)
    · split at h
      · next hitems =>
        cases h
        exact Or.inr (Or.inr (congrArg Json.array (texts?_eq_some_iff.mp hitems)))
      · cases h
    · cases h
  · rintro (⟨rfl, rfl⟩ | ⟨s, rfl, rfl⟩ | rfl)
    · rfl
    · rfl
    · unfold textOrList
      simp only [texts?_map_string]

theorem keeps_textOrList (ss : List String) : textOrList.Keeps ss := by
  exact read_textOrList_ok_iff.mpr (Or.inr (Or.inr rfl))

end Codec

/-! ## Fields -/

namespace Fields

/-- All parts are kept by the codecs of their fields. -/
def Keep : {α : Type} → Fields α → α → Prop
  | _, nil, _ => True
  | _, cons _ codec _ rest, (a, b) => codec.Keeps a ∧ rest.Keep b

/-- The codecs of all fields are stable, and keep what stands for an absent field. -/
def Stable : {α : Type} → Fields α → Prop
  | _, nil => True
  | _, cons _ codec absent rest => codec.Stable ∧ (∀ a ∈ absent, codec.Keeps a) ∧ rest.Stable

section Reading

variable {α β : Type} {name : String} {codec : Codec α} {absent : Option α} {rest : Fields β}
  {a : α} {b : β}

/-- What is read for a field, given what stands in its place, if anything does. -/
def readPart (codec : Codec α) (absent : Option α) (error : ReadError) (found : Option Json) :
    Except ReadError α :=
  match found, absent with
  | some v, _ => codec.read v
  | none, some a => .ok a
  | none, none => .error error

theorem ofTable_cons (t : Table Json) (name : String) (codec : Codec α) (absent : Option α)
    (rest : Fields β) : (cons name codec absent rest).ofTable t =
      (readPart codec absent (.missingField name) (t.get? name) >>= fun a =>
        rest.ofTable t >>= fun b => pure (a, b)) := by
  conv => lhs; unfold ofTable
  cases t.get? name <;> cases absent <;> rfl

theorem ofItems_cons (expected : String) (i : Nat) (items : List Json) (name : String)
    (codec : Codec α) (absent : Option α) (rest : Fields β) :
    (cons name codec absent rest).ofItems expected i items =
      (readPart codec absent (.invalidLength i expected) items.head? >>= fun a =>
        rest.ofItems expected (i + 1) items.tail >>= fun b => pure (a, b)) := by
  cases items <;> cases absent <;> rfl

theorem bind_pair_ok_iff {x : Except ReadError α} {y : Except ReadError β} {p : α × β} :
    (x >>= fun a => y >>= fun b => pure (a, b)) = .ok p ↔ x = .ok p.1 ∧ y = .ok p.2 := by
  cases x with
  | error e => simp [bind, Except.bind]
  | ok a => cases y <;> simp [bind, Except.bind, pure, Except.pure, Prod.ext_iff]

theorem keeps_of_readPart {error : ReadError} {found : Option Json} (h : codec.Stable)
    (habsent : ∀ a ∈ absent, codec.Keeps a) (hread : readPart codec absent error found = .ok a) :
    codec.Keeps a := by
  cases found with
  | some v => exact h v a hread
  | none =>
    cases absent with
    | none => cases hread
    | some c =>
      cases hread
      exact habsent a rfl

end Reading

/-- The fields that are found in an object are kept. -/
theorem keep_of_ofTable {t : Table Json} {α : Type} {fields : Fields α} (h : fields.Stable)
    {parts : α} (hread : fields.ofTable t = .ok parts) : fields.Keep parts := by
  induction fields with
  | nil => trivial
  | cons name codec absent rest ih =>
    rw [ofTable_cons, bind_pair_ok_iff] at hread
    exact ⟨keeps_of_readPart h.1 h.2.1 hread.1, ih h.2.2 hread.2⟩

/-- So are those that are found in an array. -/
theorem keep_of_ofItems {expected : String} {i : Nat} {items : List Json} {α : Type}
    {fields : Fields α} (h : fields.Stable) {parts : α}
    (hread : fields.ofItems expected i items = .ok parts) : fields.Keep parts := by
  induction fields generalizing i items with
  | nil => trivial
  | cons name codec absent rest ih =>
    rw [ofItems_cons, bind_pair_ok_iff] at hread
    exact ⟨keeps_of_readPart h.1 h.2.1 hread.1, ih h.2.2 hread.2⟩

/-! ## Writing fields -/

theorem map_fst_write {α : Type} (fields : Fields α) (parts : α) :
    (fields.write parts).map Prod.fst = fields.names := by
  induction fields with
  | nil => rfl
  | cons name codec absent rest ih => exact congrArg (name :: ·) (ih parts.2)

/-- Every entry that is written can be read as the field of its key. -/
theorem check_of_mem_write {known : List String} {α : Type} {fields : Fields α} {parts : α}
    (hnames : fields.names.Nodup) (h : fields.Keep parts) {e : String × Json}
    (he : e ∈ fields.write parts) : fields.check known e = .ok () := by
  induction fields with
  | nil => cases he
  | cons name codec absent rest ih =>
    have hdistinct := List.nodup_cons.mp hnames
    rcases List.mem_cons.mp he with rfl | hrest
    · show (if name = name then _ else _) = _
      rw [if_pos rfl, h.1]
      rfl
    · have hne : e.1 ≠ name := by
        rintro rfl
        refine hdistinct.1 ?_
        rw [← map_fst_write rest parts.2]
        exact List.mem_map_of_mem hrest
      show (if e.1 = name then _ else rest.check known e) = _
      rw [if_neg hne]
      exact ih hdistinct.2 h.2 hrest

/-- The parts are found again in a table with the entries that are written. -/
theorem ofTable_of_write {t : Table Json} {α : Type} {fields : Fields α} {parts : α}
    (h : fields.Keep parts) (ht : ∀ e ∈ fields.write parts, t.get? e.1 = some e.2) :
    fields.ofTable t = .ok parts := by
  induction fields with
  | nil => rfl
  | cons name codec absent rest ih =>
    obtain ⟨hhead, hrest⟩ := List.forall_mem_cons.mp ht
    rw [ofTable_cons, bind_pair_ok_iff, hhead]
    exact ⟨h.1, ih h.2 hrest⟩

end Fields

/-! ## Records -/

namespace Codec

section Record

variable {α β : Type} {name : String} {fields : Fields β} {make : β → α} {parts : α → β}

/-- An object of all fields is read as the parts it was written for. -/
theorem readFields_write {b : β} (hnames : fields.names.Nodup) (h : fields.Keep b) :
    readFields name fields (.object (fields.write b)) = .ok b := by
  have hkeys : ((fields.write b).map Prod.fst).Nodup := by
    rw [Fields.map_fst_write]
    exact hnames
  have hentries : (Table.ofList (fields.write b)).entries = fields.write b :=
    Table.entries_ofList hkeys
  have hcheck : (Table.ofList (fields.write b)).entries.forM
      (fun e => fields.check fields.names e) = .ok () := by
    rw [hentries]
    exact forM_ok_iff.mpr fun e he => Fields.check_of_mem_write hnames h he
  have hfields : fields.ofTable (Table.ofList (fields.write b)) = .ok b := by
    refine Fields.ofTable_of_write h ?_
    intro e he
    rw [Table.get?_eq_some_iff, hentries]
    exact he
  show (List.forM _ _ >>= fun _ => fields.ofTable _) = _
  rw [hcheck]
  exact hfields

/-- The parts of what is read as a record are kept. -/
theorem keep_of_readFields {v : Json} {b : β} (h : fields.Stable)
    (hread : readFields name fields v = .ok b) : fields.Keep b := by
  cases v with
  | object entries =>
    obtain ⟨-, -, hfields⟩ := bind_ok_iff.mp hread
    exact Fields.keep_of_ofTable h hfields
  | array items =>
    obtain ⟨parts, hfields, hlength⟩ := bind_ok_iff.mp hread
    have hsame : parts = b := by
      split at hlength
      · cases hlength
      · exact Except.ok.inj hlength
    exact Fields.keep_of_ofItems h (hsame ▸ hfields)
  | _ => cases hread

/-- A record is stable if all its fields are, and their names differ. -/
theorem stable_record (hnames : fields.names.Nodup) (h : fields.Stable)
    (hparts : ∀ b, parts (make b) = b) : (record name fields make parts).Stable := by
  intro v a hread
  replace hread : (readFields name fields v).map make = .ok a := hread
  cases hv : readFields name fields v with
  | error e =>
    rw [hv] at hread
    cases hread
  | ok b =>
    rw [hv] at hread
    cases hread
    show (readFields name fields (.object (fields.write (parts (make b))))).map make = _
    rw [hparts, readFields_write hnames (keep_of_readFields h hv)]
    rfl

end Record

end Codec

end SignedDocs
