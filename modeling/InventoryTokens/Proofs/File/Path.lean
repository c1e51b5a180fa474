import InventoryTokens.File.Path
import InventoryTokens.Proofs.Text.Pieces

/-!
# Spellings of a path

A relative path of two names may be spelled in many ways: between the names and after them there may
be further slashes, and dots between slashes.  Nothing may stand before the first name, and no other
text spells the path.
-/

namespace InventoryTokens.File.Path

/-- A piece between slashes that stands for no component. -/
def IsFiller (piece : List Char) : Prop := piece = [] ∨ piece = ['.']

/-- A text that may name a file or a directory. -/
structure IsName (name : String) : Prop where
  not_filler : ¬IsFiller name.toList
  not_up : name.toList ≠ ['.', '.']
  not_mem_slash : '/' ∉ name.toList

instance (piece : List Char) : Decidable (IsFiller piece) :=
  inferInstanceAs (Decidable (piece = [] ∨ piece = ['.']))

instance (name : String) : Decidable (IsName name) :=
  decidable_of_iff (¬IsFiller name.toList ∧ name.toList ≠ ['.', '.'] ∧ '/' ∉ name.toList)
    ⟨fun ⟨hfiller, hup, hslash⟩ => ⟨hfiller, hup, hslash⟩,
      fun ⟨hfiller, hup, hslash⟩ => ⟨hfiller, hup, hslash⟩⟩

theorem IsFiller.not_mem_slash {piece : List Char} (h : IsFiller piece) : '/' ∉ piece := by
  rcases h with rfl | rfl <;> simp

theorem component?_eq_none {piece : List Char} : component? piece = none ↔ IsFiller piece := by
  rw [component?, IsFiller]
  split
  · simp [*]
  · split <;> simp [*]

theorem filterMap_component?_eq_nil {pieces : List (List Char)} :
    pieces.filterMap component? = [] ↔ ∀ piece ∈ pieces, IsFiller piece := by
  rw [List.filterMap_eq_nil_iff]
  exact forall₂_congr fun piece _ => component?_eq_none

theorem piece_of_component? {piece : List Char} {name : String}
    (h : component? piece = some (.name name)) : piece = name.toList := by
  rw [component?] at h
  split at h
  · cases h
  · split at h
    · cases h
    · rw [← Component.name.inj (Option.some.inj h), String.toList_ofList]

theorem component?_toList {name : String} (h : IsName name) :
    component? name.toList = some (.name name) := by
  have hfiller : ¬(name.toList = [] ∨ name.toList = ['.']) := h.not_filler
  rw [component?, if_neg hfiller, if_neg h.not_up, String.ofList_toList]

/-- Components begin with a name exactly if the first piece is that name; then the others come from
the other pieces. -/
theorem components_eq_cons {name : String} (hname : IsName name) {text : String}
    {rest : List Component} :
    (parse text).components = .name name :: rest ↔
      ∃ pieces, text.toList.splitOn '/' = name.toList :: pieces ∧
        pieces.filterMap component? = rest := by
  rw [← Text.cut_eq_splitOn, parse]
  cases hcut : Text.cut '/' text.toList with
  | mk first pieces =>
    have hempty : text = "" → first = [] ∧ pieces = [] := by
      rintro rfl
      cases hcut
      exact ⟨rfl, rfl⟩
    dsimp only
    by_cases hfiller : IsFiller first
    · -- What stands before the names is then the root, the dot, or nothing because all is empty.
      have hnot : ¬first = name.toList := fun he => hname.not_filler (he ▸ hfiller)
      simp only [List.cons.injEq, hnot, false_and, exists_const, iff_false]
      by_cases htext : text = ""
      · obtain ⟨rfl, rfl⟩ := hempty htext
        simp [htext, component?]
      · rcases hfiller with rfl | rfl <;> simp [htext]
    · have hstart : ¬text = "" ∧ ¬first = [] ∧ ¬first = ['.'] :=
        ⟨fun he => hfiller (Or.inl (hempty he).1), fun he => hfiller (Or.inl he),
          fun he => hfiller (Or.inr he)⟩
      obtain ⟨c, hc⟩ := Option.ne_none_iff_exists'.mp (mt component?_eq_none.mp hfiller)
      rw [if_neg hstart.1, if_neg hstart.2.1, if_neg hstart.2.2, List.nil_append,
        List.filterMap_cons_some hc, List.cons.injEq]
      constructor
      · rintro ⟨rfl, hrest⟩
        exact ⟨pieces, by rw [piece_of_component? hc], hrest⟩
      · rintro ⟨_, hpieces, hrest⟩
        obtain ⟨rfl, rfl⟩ := List.cons.inj hpieces
        rw [component?_toList hname] at hc
        exact ⟨(Option.some.inj hc).symm, hrest⟩

/-- The texts that spell a relative path of two names. -/
theorem components_eq_pair {first second : String} (hfirst : IsName first) (hsecond : IsName second)
    {text : String} :
    (parse text).components = [.name first, .name second] ↔
      ∃ inner outer, (∀ piece ∈ inner ++ outer, IsFiller piece) ∧
        text.toList = ['/'].intercalate (first.toList :: inner ++ second.toList :: outer) := by
  rw [components_eq_cons hfirst]
  constructor
  · rintro ⟨pieces, hpieces, hrest⟩
    obtain ⟨inner, piece, outer, rfl, hinner, hpiece, houter⟩ :=
      List.filterMap_eq_cons_iff.mp hrest
    refine ⟨inner, outer, ?_, ?_⟩
    · rw [List.forall_mem_append]
      exact ⟨fun piece hp => component?_eq_none.mp (hinner piece hp),
        filterMap_component?_eq_nil.mp houter⟩
    · have hjoin : ['/'].intercalate (text.toList.splitOn '/') = text.toList :=
        List.intercalate_splitOn '/'
      rw [← hjoin, hpieces, piece_of_component? hpiece, List.cons_append]
  · rintro ⟨inner, outer, hfillers, htext⟩
    obtain ⟨hinner, houter⟩ := List.forall_mem_append.mp hfillers
    refine ⟨inner ++ second.toList :: outer, ?_, ?_⟩
    · rw [htext]
      refine List.splitOn_intercalate '/' ?_ (List.cons_ne_nil _ _)
      simp only [List.cons_append, List.forall_mem_cons, List.forall_mem_append]
      exact ⟨hfirst.not_mem_slash, fun piece hp => (hinner piece hp).not_mem_slash,
        hsecond.not_mem_slash, fun piece hp => (houter piece hp).not_mem_slash⟩
    · exact List.filterMap_eq_cons_iff.mpr ⟨inner, second.toList, outer, rfl,
        fun piece hp => component?_eq_none.mpr (hinner piece hp), component?_toList hsecond,
        filterMap_component?_eq_nil.mpr houter⟩

end InventoryTokens.File.Path
