import InventoryTokens.Proofs.Toml.Document
import Mathlib.Logic.Basic

/-!
# Documents that have a text

A tidy record has a text exactly if every integer in it fits in 64 signed bits.  A member without a
value leaves nothing in the text.
-/

namespace InventoryTokens.Toml

/-- Every integer in a datum fits in 64 signed bits. -/
inductive Fits : Datum → Prop where
  | absent : Fits .absent
  | flag (value : Bool) : Fits (.flag value)
  | whole {n : Int} (h : Text.FitsInt64 n) : Fits (.whole n)
  | number (x : Double) : Fits (.number x)
  | text (s : String) : Fits (.text s)
  | list {items : List Datum} (h : ∀ item ∈ items, Fits item) : Fits (.list items)
  | record {members : List (String × Datum)} (h : ∀ m ∈ members, Fits m.2) :
    Fits (.record members)
  | unreadable : Fits .unreadable

theorem fits_whole {n : Int} : Fits (.whole n) ↔ Text.FitsInt64 n :=
  ⟨fun | .whole h => h, .whole⟩

theorem fits_list {items : List Datum} : Fits (.list items) ↔ ∀ item ∈ items, Fits item :=
  ⟨fun | .list h => h, .list⟩

theorem fits_record {members : List (String × Datum)} :
    Fits (.record members) ↔ ∀ m ∈ members, Fits m.2 :=
  ⟨fun | .record h => h, .record⟩

theorem fits_nat {n : Nat} : Fits (.nat n) ↔ n ≤ 0x7FFFFFFFFFFFFFFF := by
  rw [Datum.nat, fits_whole]
  constructor
  · rintro ⟨-, hlt⟩
    omega
  · intro hle
    constructor <;> omega

theorem fits_member? {α : Type} {name : String} {encode : α → Datum} {value : Option α} :
    (∀ m ∈ Datum.member? name encode value, Fits m.2) ↔
      ∀ a, value = some a → Fits (encode a) := by
  cases value <;> simp [Datum.member?]

theorem fits_members? {α : Type} {name : String} {encode : α → Datum} {items : List α} :
    (∀ m ∈ Datum.members? name encode items, Fits m.2) ↔
      ∀ a ∈ items, Fits (encode a) := by
  cases items <;> simp [Datum.members?, fits_list]

theorem isSome_mapM {α β : Type} {f : α → Option β} {items : List α} :
    (items.mapM f).isSome = true ↔ ∀ item ∈ items, (f item).isSome = true := by
  induction items with
  | nil => simp
  | cons item items ih =>
    rw [List.mapM_cons, List.forall_mem_cons, ← ih]
    cases f item with
    | none => simp
    | some b => cases items.mapM f <;> simp

theorem isSome_plainChars? {d : Datum} (h : Atom d) : (plainChars? d).isSome = true ↔ Fits d := by
  cases h with
  | flag value => cases value <;> simp [plainChars?, Fits.flag]
  | whole n =>
    rw [fits_whole, plainChars?]
    by_cases hn : Text.FitsInt64 n
    · rw [if_pos hn]
      exact iff_of_true rfl hn
    · rw [if_neg hn]
      exact iff_of_false (by simp) hn
  | text s => simp [plainChars?, Fits.text]

theorem isSome_arrayChars? {items : List Datum} (h : ∀ item ∈ items, Atom item) :
    (arrayChars? items).isSome = true ↔ Fits (.list items) := by
  rw [fits_list]
  match items with
  | [] => simp [arrayChars?]
  | [item] => simp [arrayChars?, isSome_plainChars? (h item (by simp))]
  | first :: second :: items =>
    rw [arrayChars?, Option.isSome_map, isSome_mapM]
    · refine forall₂_congr fun item hitem => ?_
      rw [Option.isSome_map, isSome_plainChars? (h item hitem)]
    · simp
    · simp

theorem isSome_memberLine? {m : String × Datum} (h : Plain m.2) :
    (memberLine? m).isSome = true ↔ Fits m.2 := by
  obtain ⟨key, d⟩ := m
  cases h with
  | atom h =>
    have hline : memberLine? (key, d) = (plainChars? d).map fun cs =>
        keyChars key ++ [' ', '=', ' '] ++ cs ++ ['\n'] := by
      cases h <;> rfl
    rw [hline, Option.isSome_map, isSome_plainChars? h]
  | list h =>
    rename_i items
    have htabular := isTabular_of_isPlain (Plain.list h).isPlain
    rw [memberLine?, if_neg (by simp [htabular]), Option.isSome_map, isSome_arrayChars? h]

theorem memberLine?_nested (m : String × Nest) : memberLine? (m.1, m.2.datum) = some [] := by
  obtain ⟨key, nest⟩ := m
  cases nest <;> rfl

/-- The lines of the plain members exist exactly if the integers in them fit. -/
theorem isSome_plainLines? {plain : List (String × Datum)} (h : ∀ m ∈ plain, Plain m.2)
    (nested : List (String × Nest)) :
    (plainLines? (plain ++ nestedMembers nested)).isSome = true ↔ ∀ m ∈ plain, Fits m.2 := by
  have hnested : ∀ m ∈ nestedMembers nested, (memberLine? m).isSome = true := by
    intro m hm
    obtain ⟨m, -, rfl⟩ := List.mem_map.mp hm
    rw [memberLine?_nested]
    rfl
  rw [plainLines?, Option.isSome_map, isSome_mapM, List.forall_mem_append,
    and_iff_left hnested]
  exact forall₂_congr fun m hm => isSome_memberLine? (h m hm)

/-- Whether a record has lines does not depend on where they stand. -/
def Written (members : List (String × Datum)) : Prop :=
  ∀ path started, ((plainLines? members).isSome = true ∧
    (nestedLines? path started members).isSome = true) ↔ Fits (.record members)

theorem isSome_elementLines? (records : List (List (String × Datum)))
    (h : ∀ members ∈ records, Written members) (path : List String) (started : Bool) :
    (elementLines? path started (records.map .record)).isSome = true ↔
      ∀ members ∈ records, Fits (.record members) := by
  induction records generalizing started with
  | nil => simp [elementLines?]
  | cons members records ih =>
    have hmembers := h members (by simp) path true
    have hrest := ih (fun m hm => h m (by simp [hm])) true
    rw [List.map_cons, elementLines?, List.forall_mem_cons, ← hmembers, ← hrest]
    cases plainLines? members <;> cases nestedLines? path true members <;>
      cases elementLines? path true (records.map .record) <;> simp

theorem isSome_tableLines? {nest : Nest} (h : ∀ members ∈ nest.records, Written members)
    (path : List String) (started : Bool) :
    (tableLines? path started nest.datum).isSome = true ↔ Fits nest.datum := by
  cases nest with
  | table members =>
    have hmembers := h members (by simp [Nest.records]) path true
    rw [Nest.datum, tableLines?, ← hmembers]
    cases plainLines? members <;> cases nestedLines? path true members <;> simp
  | tables first rest =>
    have hrecords := isSome_elementLines? (first :: rest) h path started
    rw [Nest.datum, tableLines?, hrecords, fits_list]
    simp

theorem isSome_nestedLines? {nested : List (String × Nest)}
    (h : ∀ m ∈ nested, ∀ members ∈ m.2.records, Written members) (path : List String)
    (started : Bool) :
    (nestedLines? path started (nestedMembers nested)).isSome = true ↔
      ∀ m ∈ nestedMembers nested, Fits m.2 := by
  induction nested generalizing started with
  | nil => simp [nestedMembers, nestedLines?]
  | cons m nested ih =>
    obtain ⟨key, nest⟩ := m
    have hnest := isSome_tableLines? (h (key, nest) (by simp)) (path ++ [key]) started
    have hrest := ih fun m hm => h m (by simp [hm])
    show (nestedLines? path started ((key, nest.datum) :: nestedMembers nested)).isSome = true ↔
      ∀ m ∈ (key, nest.datum) :: nestedMembers nested, Fits m.2
    rw [List.forall_mem_cons, nestedLines?, nestedLine?, if_pos nest.isTabular_datum, ← hnest]
    cases tableLines? (path ++ [key]) started nest.datum with
    | none => simp
    | some first =>
      rw [← hrest (started || !first.isEmpty)]
      cases hlines : nestedLines? path (started || !first.isEmpty) (nestedMembers nested) <;>
        simp [hlines]

theorem Tidy.written {depth : Nat} {members : List (String × Datum)} (h : Tidy depth members) :
    Written members := by
  induction h with
  | @intro depth plain nested hplain _ _ ih =>
    intro path started
    rw [isSome_plainLines? hplain, nestedLines?_plain hplain, isSome_nestedLines? ih, fits_record,
      List.forall_mem_append]

/-- A tidy record has a text exactly if its integers fit. -/
theorem isSome_write? {depth : Nat} {members : List (String × Datum)} (h : Tidy depth members) :
    (write? (.record members)).isSome = true ↔ Fits (.record members) := by
  cases hplain : plainLines? members with
  | none =>
    rw [← h.written [] false]
    simp [write?, hplain]
  | some plain =>
    rw [← h.written [] (!plain.isEmpty)]
    cases hnested : nestedLines? [] (!plain.isEmpty) members <;> simp [write?, hplain, hnested]

theorem plainLines?_append_absent (members : List (String × Datum)) (key : String) :
    plainLines? (members ++ [(key, .absent)]) = plainLines? members := by
  have hlast : [(key, Datum.absent)].mapM memberLine? = some [[]] := rfl
  rw [plainLines?, plainLines?, List.mapM_append, hlast]
  cases members.mapM memberLine? <;> simp

theorem nestedLines?_append_absent (path : List String) (started : Bool)
    (members : List (String × Datum)) (key : String) :
    nestedLines? path started (members ++ [(key, .absent)]) =
      nestedLines? path started members := by
  induction members generalizing started with
  | nil => rfl
  | cons m members ih =>
    rw [List.cons_append, nestedLines?, nestedLines?]
    simp only [ih]

/-- A member without a value is not written. -/
theorem write?_ofOption {α : Type} (encode : α → Datum) (members : List (String × Datum))
    (key : String) (value : Option α) :
    write? (.record (members ++ [(key, Datum.ofOption encode value)])) =
      write? (.record (members ++ Datum.member? key encode value)) := by
  cases value with
  | some a => rfl
  | none =>
    rw [Datum.ofOption, Datum.member?, List.append_nil, write?, write?]
    simp only [plainLines?_append_absent, nestedLines?_append_absent]

end InventoryTokens.Toml
