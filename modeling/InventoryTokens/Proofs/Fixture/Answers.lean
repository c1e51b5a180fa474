import InventoryTokens.Proofs.Fixture.Build
import InventoryTokens.Proofs.Host.Run
import InventoryTokens.Proofs.SlotToken

/-!
# What a fixture answers

From the list of entries to the answer for a token: a name, in any case of its letters, finds the
player of the smallest identifier among those so named, and a slot token is answered with the stack
that the player's entry lists for the slot, less metadata that says nothing.  Nothing else in the
fixture, and no order in it, has a part in either.
-/

namespace InventoryTokens

namespace Entry

/-- What an entry says about a slot: the stack that it lists there, less metadata that says nothing,
or air. -/
def answer (e : Entry) (slot : Slot) : Stack :=
  match e.slots.find? fun p => p.slot = slot with
  | some p => ⟨p.item, p.count, p.metadata.filter fun m => !m.isEmpty⟩
  | none => .air

/-- Nothing that an entry says has metadata that says nothing. -/
theorem metadata_answer_ne (e : Entry) (slot : Slot) : (e.answer slot).metadata ≠ some {} := by
  rw [answer]
  split
  · intro hmetadata
    obtain ⟨-, hkept⟩ := Option.filter_eq_some_iff.mp hmetadata
    rw [Metadata.isEmpty_iff.mpr rfl] at hkept
    cases hkept
  · simp [Stack.air]

/-- What is found in a slot of what was built is what the entry says about it. -/
theorem getD_get_contents {e : Entry} (h : e.Accepted) (slot : Slot) :
    (e.contents.get slot).getD .air = e.answer slot := by
  rw [answer]
  cases hfind : e.slots.find? fun p => p.slot = slot with
  | none =>
    have hfree : e.contents.get slot = none := by
      apply Option.eq_none_iff_forall_ne_some.mpr
      intro stack hstack
      obtain ⟨p, hp, hslot, -⟩ := (get_contents_eq_some h).mp hstack
      have hother := List.find?_eq_none.mp hfind p hp
      simp [hslot] at hother
    rw [hfree]
    rfl
  | some p =>
    have hslot : p.slot = slot := by simpa using List.find?_some hfind
    have hfilled : e.contents.get slot = some p.stack :=
      (get_contents_eq_some h).mpr ⟨p, List.mem_of_find?_eq_some hfind, hslot, rfl⟩
    rw [hfilled, Option.getD_some, Placed.stack_eq]
    rfl

/-- Of two entries that list the same stacks of the main grid, in any order, each says the same. -/
theorem answer_congr {d e : Entry} (hd : d.Accepted) (he : e.Accepted)
    (h : ∀ p, p ∈ d.slots ↔ p ∈ e.slots) (slot : Slot) : d.answer slot = e.answer slot := by
  rw [← getD_get_contents hd, ← getD_get_contents he]
  congr 1
  apply Option.ext
  intro stack
  rw [get_contents_eq_some hd, get_contents_eq_some he]
  simp only [h]

end Entry

namespace Host

/-- Players stand in the order of their identifiers. -/
theorem players_ascending (host : Host) : host.players.Pairwise fun p q => p.id < q.id := by
  have hids : host.players.map Player.id = host.residents.keys := by
    rw [players, List.map_map, Table.keys]
    apply List.map_congr_left
    intro entry hentry
    exact host.keyed entry.1 entry.2 (Table.mem_entries_iff.mp hentry)
  rw [← List.pairwise_map (f := Player.id), hids]
  exact host.residents.keys_ascending

theorem mem_players {host : Host} {player : Player} :
    player ∈ host.players ↔
      ∃ id resident, host.residents.find? id = some resident ∧ resident.toPlayer = player := by
  rw [players, List.mem_map]
  simp only [Prod.exists, Table.mem_entries_iff]

/-- A name finds the player of the smallest identifier among those so named. -/
theorem playerNamed?_eq_some {host : Host} {name : String} {player : Player} :
    host.playerNamed? name = some player ↔
      player ∈ host.players ∧ Text.sameLetters player.name name = true ∧
        ∀ other ∈ host.players, Text.sameLetters other.name name = true →
          player.id ≤ other.id :=
  Table.find?_of_ascending host.players_ascending

end Host

namespace Fixture

variable {f : Fixture} {host : Host}

/-- The players of a host that was built are those that are listed. -/
theorem mem_players_of_build (h : f.build = .ok host) {player : Player} :
    player ∈ host.players ↔ ∃ e ∈ f.players, e.player = player := by
  rw [Host.mem_players]
  simp only [find?_of_build h]
  constructor
  · intro ⟨_, _, ⟨e, he, _, hresident⟩, hplayer⟩
    exact ⟨e, he, by rw [← hplayer, hresident]⟩
  · intro ⟨e, he, hplayer⟩
    exact ⟨e.id, ⟨e.player, e.contents⟩, ⟨e, he, rfl, rfl⟩, hplayer⟩

theorem playerNamed?_of_build (h : f.build = .ok host) {name : String} {player : Player} :
    host.playerNamed? name = some player ↔
      ∃ e ∈ f.players, e.player = player ∧ Text.sameLetters e.name name = true ∧
        ∀ d ∈ f.players, Text.sameLetters d.name name = true → e.id ≤ d.id := by
  simp only [Host.playerNamed?_eq_some, mem_players_of_build h]
  constructor
  · intro ⟨⟨e, he, hplayer⟩, hname, hleast⟩
    rw [← hplayer] at hname hleast
    exact ⟨e, he, hplayer, hname, fun d hd => hleast d.player ⟨d, hd, rfl⟩⟩
  · intro ⟨e, he, hplayer, hname, hleast⟩
    rw [← hplayer]
    refine ⟨⟨e, he, rfl⟩, hname, ?_⟩
    intro other ⟨d, hd, hother⟩ hsame
    rw [← hother] at hsame ⊢
    exact hleast d hd hsame

theorem playerNamed?_of_build_eq_none (h : f.build = .ok host) {name : String} :
    host.playerNamed? name = none ↔
      ∀ e ∈ f.players, ¬Text.sameLetters e.name name = true := by
  rw [Host.playerNamed?, List.find?_eq_none]
  simp only [mem_players_of_build h]
  constructor
  · intro hnone e he
    exact hnone e.player ⟨e, he, rfl⟩
  · intro hnone player ⟨e, he, hplayer⟩
    rw [← hplayer]
    exact hnone e he

/-- A listed player is found by the name in any case of its letters, unless a player of a smaller
identifier is. -/
theorem exists_playerNamed?_of_build (h : f.build = .ok host) {e : Entry} (he : e ∈ f.players)
    {name : String} (hlength : e.name.length = name.length)
    (hletters : ∀ p ∈ e.name.toList.zip name.toList, Text.SameLetter p.1 p.2) :
    ∃ d ∈ f.players, host.playerNamed? name = some d.player ∧ d.id ≤ e.id := by
  have hname := Text.sameLetters_iff.mpr ⟨hlength, hletters⟩
  cases hfound : host.playerNamed? name with
  | none => exact absurd hname ((playerNamed?_of_build_eq_none h).mp hfound e he)
  | some player =>
    obtain ⟨d, hd, hplayer, -, hleast⟩ := (playerNamed?_of_build h).mp hfound
    exact ⟨d, hd, by rw [hplayer], hleast e he hname⟩

/-- A slot token is answered with what the player's entry says about the slot. -/
theorem resolveToken_slot (h : f.build = .ok host) {e : Entry} (he : e ∈ f.players) (slot : Slot) :
    (Registry.withDefaults.resolveToken ("$playerinv:" ++ slot.text) (some e.player)
      host.provider).value = .ok (some (e.answer slot)) := by
  have haccepted := (build_eq_ok.mp h).1 e he
  have hid : e.player.id = e.id := rfl
  have hshown : SlotPlaceholder.shown (some e.player) host.provider slot =
      some (e.answer slot) := by
    rw [Host.shown_provider, Host.held, hid, inventory?_of_build h he, Option.map_some,
      Option.map_some, Entry.getD_get_contents haccepted]
  rw [← hshown]
  exact Token.value_resolveToken_of_addresses (Token.addresses_text slot) _ _

/-- What the fixture says is what is answered.  A name finds the listed player of the smallest
identifier with that name, and every slot token the stack that the player's entry lists for the
slot, of which there is one at most.  Two fixtures that list the same players find the same by name,
and two entries that list the same stacks of the main grid answer alike, whatever else is listed. -/
theorem answers_of_build (h : f.build = .ok host) :
    let token := fun slot : Slot => "$playerinv:" ++ slot.text
    let answer := fun (host : Host) (e : Entry) (slot : Slot) =>
      (Registry.withDefaults.resolveToken (token slot) (some e.player) host.provider).value
    (∀ name player, host.playerNamed? name = some player ↔
      ∃ e ∈ f.players, e.player = player ∧ Text.sameLetters e.name name = true ∧
        ∀ d ∈ f.players, Text.sameLetters d.name name = true → e.id ≤ d.id) ∧
    (∀ name, host.playerNamed? name = none ↔
      ∀ e ∈ f.players, ¬Text.sameLetters e.name name = true) ∧
    (∀ e ∈ f.players, (e.slots.map Placed.slot).Nodup ∧
      ∀ slot, answer host e slot = .ok (some (e.answer slot))) ∧
    ∀ (g : Fixture) (other : Host), g.build = .ok other →
      ((∀ player, player ∈ g.players.map Entry.player ↔ player ∈ f.players.map Entry.player) →
        other.playerNamed? = host.playerNamed?) ∧
      ∀ d ∈ g.players, ∀ e ∈ f.players, (∀ p, p ∈ d.slots ↔ p ∈ e.slots) →
        answer other d = answer host e := by
  intro token answer
  refine ⟨fun name player => playerNamed?_of_build h,
    fun name => playerNamed?_of_build_eq_none h, ?_, ?_⟩
  · intro e he
    exact ⟨((build_eq_ok.mp h).1 e he).slots, resolveToken_slot h he⟩
  · intro g other hg
    constructor
    · intro hplayers
      have hlisted : ∀ player, player ∈ other.players ↔ player ∈ host.players := by
        intro player
        rw [mem_players_of_build hg, mem_players_of_build h, ← List.mem_map, ← List.mem_map]
        exact hplayers player
      funext name
      apply Option.ext
      intro player
      rw [Host.playerNamed?_eq_some, Host.playerNamed?_eq_some]
      simp only [hlisted]
    · intro d hd e he hslots
      funext slot
      have haccepted := (build_eq_ok.mp hg).1 d hd
      have hother := resolveToken_slot hg hd slot
      rw [Entry.answer_congr haccepted ((build_eq_ok.mp h).1 e he) hslots] at hother
      exact hother.trans (resolveToken_slot h he slot).symm

def stone : Key := ⟨"minecraft", "stone", Key.air.space_valid, rfl⟩

/-- Two players whose names differ in case only, the one of the smaller identifier last, and before
them in the order of identifiers a player whose name is longer. -/
def namesakes : Fixture :=
  ⟨[{ id := 7, name := "Steve",
      slots := [⟨44, stone, 9, some {}⟩, ⟨13, stone, 5, some { damage := some 3 }⟩] },
    { id := 3, name := "STEVE", armor := [⟨0, stone, 1, none⟩] },
    { id := 2, name := "Steven" }]⟩

theorem answers_namesakes : ∃ host, namesakes.build = .ok host ∧
    host.playerNamed? "steve" = some ⟨3, "STEVE"⟩ ∧ host.playerNamed? "stev" = none ∧
    (Registry.withDefaults.resolveToken "$playerinv:44" (some ⟨7, "Steve"⟩) host.provider).value =
      .ok (some ⟨stone, 9, none⟩) ∧
    (Registry.withDefaults.resolveToken "$playerinv:0" (some ⟨3, "STEVE"⟩) host.provider).value =
      .ok (some .air) := by
  have haccepted : ∀ e ∈ namesakes.players, e.Accepted := by
    simp only [namesakes, List.forall_mem_cons]
    exact ⟨⟨by decide, by decide⟩, ⟨by decide, by decide⟩, ⟨by decide, by decide⟩, by simp⟩
  have hbuild := build_eq_ok.mpr ⟨haccepted, by decide, rfl⟩
  obtain ⟨hnamed, hunnamed, hanswer, -⟩ := answers_of_build hbuild
  have hfirst := (hanswer namesakes.players[0] (by decide)).2 44
  have hlast := (hanswer namesakes.players[1] (by decide)).2 0
  refine ⟨_, hbuild, (hnamed _ _).mpr ⟨namesakes.players[1], by decide, rfl, by decide, ?_⟩,
    (hunnamed _).mpr ?_, ?_, ?_⟩
  · decide
  · decide
  · exact hfirst
  · exact hlast

end Fixture

end InventoryTokens
