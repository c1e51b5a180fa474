import InventoryTokens.Settings
import InventoryTokens.Proofs.File.Saving
import InventoryTokens.Proofs.Toml.Fits
import InventoryTokens.Proofs.Toml.Members

/-!
# Settings kept in a file

A text is read as the settings that its members give, with the defaults for those that it leaves
out.  Settings have a text whatever texts they hold, and it is read as those settings.  So settings
that were saved are loaded again, and nothing is wrong with them.
-/

namespace InventoryTokens

namespace Settings

/-- The settings are those that members give, and the defaults for names that are not among them. -/
structure GivenBy (s : Settings) (members : Fields) : Prop where
  logFilter : members.lookup "log_filter" = some (.text s.logFilter) ∨
    members.lookup "log_filter" = none ∧ s.logFilter = ({} : Settings).logFilter
  inventoryFixture : members.lookup "inventory_fixture" = some (.text s.inventoryFixture) ∨
    members.lookup "inventory_fixture" = none ∧
      s.inventoryFixture = ({} : Settings).inventoryFixture
  defaultPlayer : members.lookup "default_player" = s.defaultPlayer.map .text

/-- Members are decoded as the settings that they give, if no name stands twice among them and
something stands at each. -/
theorem decode_eq_ok (surplus : Surplus) {members : Fields}
    (hnames : (members.map Prod.fst).Nodup) (hpresent : ∀ m ∈ members, m.2 ≠ .absent)
    {s : Settings} : decode surplus (.record members) = .ok s ↔ s.GivenBy members := by
  have hfields := Datum.fields_of_nodup hnames surplus
    ["log_filter", "inventory_fixture", "default_player"]
  generalize hknown : members.filter _ = known at hfields
  have hlookup : ∀ name ∈ ["log_filter", "inventory_fixture", "default_player"],
      known.lookup name = members.lookup name := by
    intro name hname
    rw [← hknown, Table.lookup_filter fun name => List.contains _ name,
      if_pos (List.contains_iff_mem.mpr hname)]
  obtain ⟨hfilter, hfixture, hplayer, -⟩ := by simpa only [List.forall_mem_cons] using hlookup
  have habsent : known.lookup "default_player" ≠ some .absent := by
    rw [hplayer]
    intro h
    obtain ⟨before, after, rfl, -⟩ := List.lookup_eq_some_iff.mp h
    exact hpresent ("default_player", .absent) (by simp) rfl
  constructor
  · intro h
    simp only [decode, except_bind_eq_ok] at h
    obtain ⟨fields, hgiven, logFilter, hlog, inventoryFixture, hinventory, player, hdefault, hs⟩ :=
      h
    obtain rfl := Except.ok.inj (hfields.symm.trans hgiven)
    obtain rfl := Except.ok.inj hs
    rw [Fields.withDefault_text_eq_ok, hfilter] at hlog
    rw [Fields.withDefault_text_eq_ok, hfixture] at hinventory
    rw [Fields.optional_text_eq_ok habsent, hplayer] at hdefault
    exact ⟨hlog, hinventory, hdefault⟩
  · intro hgiven
    obtain ⟨hlog, hinventory, hdefault⟩ := hgiven
    rw [← hfilter] at hlog
    rw [← hfixture] at hinventory
    rw [← hplayer] at hdefault
    simp only [decode, except_bind_eq_ok]
    exact ⟨known, hfields, _, Fields.withDefault_text_eq_ok.mpr hlog, _,
      Fields.withDefault_text_eq_ok.mpr hinventory, _,
      (Fields.optional_text_eq_ok habsent).mpr hdefault, rfl⟩

theorem ofToml?_eq_some {text : String} {s : Settings} :
    ofToml? text = some s ↔
      ∃ members, Toml.read? text = some (.record members) ∧ s.GivenBy members := by
  rw [ofToml?]
  cases hread : Toml.read? text with
  | none => simp
  | some d =>
    obtain ⟨members, rfl, hnames, hpresent⟩ := Toml.record_of_read? hread
    simp only [Option.some.injEq, Datum.record.injEq, exists_eq_left',
      ← decode_eq_ok .ignored hnames hpresent]
    cases decode .ignored (.record members) <;> simp [Except.toOption]

/-- The members of encoded settings that are written. -/
def members (s : Settings) : Fields :=
  [("log_filter", .text s.logFilter), ("inventory_fixture", .text s.inventoryFixture)] ++
    Datum.member? "default_player" .text s.defaultPlayer

theorem write?_encode (s : Settings) :
    Toml.write? s.encode = Toml.write? (.record s.members) :=
  Toml.write?_ofOption .text
    [("log_filter", .text s.logFilter), ("inventory_fixture", .text s.inventoryFixture)]
    "default_player" s.defaultPlayer

theorem names_members (s : Settings) :
    (s.members.map Prod.fst).Sublist ["log_filter", "inventory_fixture", "default_player"] := by
  rw [members, List.map_append]
  exact (List.Sublist.refl ["log_filter", "inventory_fixture"]).append (Datum.names_member? ..)

theorem givenBy_members (s : Settings) : s.GivenBy s.members where
  logFilter := Or.inl (by simp [members])
  inventoryFixture := Or.inl (by simp [members, Table.lookup_cons_eq])
  defaultPlayer := by simp [members, Table.lookup_cons_eq]

theorem plain_members (s : Settings) : ∀ m ∈ s.members, Toml.Plain m.2 := by
  intro m hm
  simp only [members, List.mem_append, List.mem_cons, List.not_mem_nil, or_false,
    Datum.mem_member?] at hm
  obtain (rfl | rfl) | ⟨name, -, rfl⟩ := hm
  · exact .atom (.text _)
  · exact .atom (.text _)
  · exact .atom (.text name)

theorem tidy_members (s : Settings) : Toml.Tidy 1 s.members := by
  refine Toml.tidy_of_names s.members [] (by decide) s.names_members
    (List.append_nil _) s.plain_members (by simp)

theorem fits_members (s : Settings) : Toml.Fits (.record s.members) := by
  rw [members, Toml.fits_record]
  simp only [List.forall_mem_append, List.forall_mem_cons, Toml.fits_member?]
  exact ⟨⟨.text _, .text _, by simp⟩, fun name _ => .text name⟩

/-- The text of settings is read as those settings. -/
theorem ofToml?_toToml (s : Settings) : ofToml? s.toToml = some s := by
  have hsome := (Toml.isSome_write? s.tidy_members).mpr s.fits_members
  obtain ⟨text, htext⟩ := Option.isSome_iff_exists.mp hsome
  have hread := Toml.read?_of_write? s.tidy_members (by decide) htext
  rw [toToml, write?_encode, htext, Option.getD_some]
  exact ofToml?_eq_some.mpr ⟨s.members, hread, s.givenBy_members⟩

variable {s : Settings} {fs after : File.FileSystem} {path : String}

/-- Settings that were saved are loaded again. -/
theorem load_of_save (h : s.save fs path = (.ok (), after)) : load after path = (s, none) := by
  rw [load, ofFile, File.FileSystem.read_of_save h]
  simp only [ofToml?_toToml]

/-- What is loaded is the default, unless the file holds settings. -/
theorem load_of_unusable
    (h : ∀ text, File.asText (fs.read path) = .ok text → ofToml? text = none) :
    (load fs path).1 = {} := by
  rw [load, ofFile]
  cases htext : File.asText (fs.read path) with
  | ok text => simp only [h text htext]
  | error cause =>
    dsimp only
    split <;> rfl

end Settings

end InventoryTokens
