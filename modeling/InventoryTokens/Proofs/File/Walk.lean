import InventoryTokens.Proofs.Decode
import InventoryTokens.Proofs.File.Tree

/-!
# Walks through a tree

A path is walked one component at a time.  Where every directory stays one, a path that led to a
directory leads to the same names afterwards, whatever else has changed.
-/

namespace InventoryTokens.File

/-- The trail after one component, from a trail that ends at a directory. -/
def Trail.enter (entries : List (String × Node)) (trail : Trail) :
    Component → Except FileError Trail
  | .root => .ok []
  | .current => .ok trail
  | .up => .ok trail.tail
  | .name name =>
    if FileSystem.nameLimit < name.utf8ByteSize then .error .nameTooLong
    else
      match entries.lookup name with
      | none => .error .notFound
      | some node => .ok ((name, node) :: trail)

theorem Trail.enter_name {entries : List (String × Node)} {trail next : Trail} {name : String} :
    trail.enter entries (.name name) = .ok next ↔
      ¬FileSystem.nameLimit < name.utf8ByteSize ∧
        ∃ node, entries.lookup name = some node ∧ (name, node) :: trail = next := by
  rw [enter]
  split
  · simp_all
  · cases entries.lookup name <;> simp_all

namespace FileSystem

open Trail (Leads)

variable {root other : Node} {trail last : Trail} {components : List Component}

theorem walk_cons (c : Component) (rest : List Component) :
    walk root (c :: rest) trail =
      match trail.node root with
      | .file _ => .error .notDirectory
      | .directory entries => trail.enter entries c >>= walk root rest := by
  rw [walk]
  cases trail.node root with
  | file content => rfl
  | directory entries =>
    cases c with
    | root => rfl
    | current => rfl
    | up => rfl
    | name name =>
      simp only [Trail.enter]
      split
      · rfl
      · cases entries.lookup name <;> rfl

/-- A walk takes one component at a time, each from a directory. -/
theorem walk_cons_eq_ok {c : Component} {rest : List Component} :
    walk root (c :: rest) trail = .ok last ↔
      ∃ entries next, trail.node root = .directory entries ∧ trail.enter entries c = .ok next ∧
        walk root rest next = .ok last := by
  rw [walk_cons]
  cases trail.node root with
  | file content => simp
  | directory entries => simp [except_bind_eq_ok]

theorem walk_append (before after : List Component) :
    walk root (before ++ after) trail = .ok last ↔
      ∃ middle, walk root before trail = .ok middle ∧ walk root after middle = .ok last := by
  induction before generalizing trail with
  | nil => simp [walk]
  | cons c rest ih =>
    rw [List.cons_append, walk_cons_eq_ok]
    constructor
    · intro ⟨entries, next, hnode, hstep, hwalk⟩
      obtain ⟨middle, hrest, hafter⟩ := ih.mp hwalk
      exact ⟨middle, walk_cons_eq_ok.mpr ⟨entries, next, hnode, hstep, hrest⟩, hafter⟩
    · intro ⟨middle, hbefore, hafter⟩
      obtain ⟨entries, next, hnode, hstep, hrest⟩ := walk_cons_eq_ok.mp hbefore
      exact ⟨entries, next, hnode, hstep, ih.mpr ⟨middle, hrest, hafter⟩⟩

theorem leads_enter (h : Leads root trail) {entries : List (String × Node)} {c : Component}
    (hnode : trail.node root = .directory entries) {next : Trail}
    (hstep : trail.enter entries c = .ok next) : Leads root next := by
  cases c with
  | root =>
    obtain rfl := Except.ok.inj hstep
    trivial
  | current =>
    obtain rfl := Except.ok.inj hstep
    exact h
  | up =>
    obtain rfl := Except.ok.inj hstep
    exact h.tail
  | name name =>
    obtain ⟨-, node, hname, rfl⟩ := Trail.enter_name.mp hstep
    exact ⟨h, entries, hnode, hname⟩

theorem leads_walk (h : Leads root trail) (hwalk : walk root components trail = .ok last) :
    Leads root last := by
  induction components generalizing trail with
  | nil =>
    obtain rfl := Except.ok.inj hwalk
    exact h
  | cons c rest ih =>
    obtain ⟨entries, next, hnode, hstep, hrest⟩ := walk_cons_eq_ok.mp hwalk
    exact ih (leads_enter h hnode hstep) hrest

/-- A walk that ends at a directory starts at one. -/
theorem hasDirectory_of_walk (h : Leads root trail)
    (hwalk : walk root components trail = .ok last) (hlast : root.HasDirectory last.names) :
    root.HasDirectory trail.names := by
  cases components with
  | nil =>
    obtain rfl := Except.ok.inj hwalk
    exact hlast
  | cons c rest =>
    obtain ⟨entries, next, hnode, -, -⟩ := walk_cons_eq_ok.mp hwalk
    exact h.hasDirectory.mpr ⟨entries, hnode⟩

/-- Where directories stay, one component leads from the same names to the same names, if it leads
to a directory. -/
theorem exists_enter (hkept : ∀ names, root.HasDirectory names → other.HasDirectory names)
    (h : Leads root trail) {trail' : Trail} (h' : Leads other trail')
    (hnames : trail'.names = trail.names) {entries : List (String × Node)}
    (hnode : trail.node root = .directory entries) {c : Component} {next : Trail}
    (hstep : trail.enter entries c = .ok next) (hnext : root.HasDirectory next.names) :
    ∃ entries' next', trail'.node other = .directory entries' ∧
      trail'.enter entries' c = .ok next' ∧ Leads other next' ∧ next'.names = next.names := by
  have hthere : other.HasDirectory trail'.names := by
    rw [hnames]
    exact hkept _ (h.hasDirectory.mpr ⟨entries, hnode⟩)
  obtain ⟨entries', hnode'⟩ := h'.hasDirectory.mp hthere
  have hfound : ∀ next', trail'.enter entries' c = .ok next' → next'.names = next.names →
      ∃ entries' next', trail'.node other = .directory entries' ∧
        trail'.enter entries' c = .ok next' ∧ Leads other next' ∧ next'.names = next.names :=
    fun next' hstep' hsame => ⟨entries', next', hnode', hstep', leads_enter h' hnode' hstep', hsame⟩
  cases c with
  | root =>
    obtain rfl := Except.ok.inj hstep
    exact hfound [] rfl rfl
  | current =>
    obtain rfl := Except.ok.inj hstep
    exact hfound trail' rfl hnames
  | up =>
    obtain rfl := Except.ok.inj hstep
    have htail : ∀ t : Trail, Trail.names t.tail = t.names.dropLast := by
      intro t
      rw [Trail.names, Trail.names, List.map_tail, ← List.dropLast_reverse]
    exact hfound trail'.tail rfl (by rw [htail, htail, hnames])
  | name name =>
    -- What lies under the name may be another directory now, but it is one.
    obtain ⟨hshort, node, -, rfl⟩ := Trail.enter_name.mp hstep
    obtain ⟨found, hdirectory⟩ := hkept _ hnext
    rw [Trail.names_cons, ← hnames, h'.find?_names_append hnode'] at hdirectory
    have hsame : Trail.names ((name, .directory found) :: trail') =
        Trail.names ((name, node) :: trail) := by
      rw [Trail.names_cons, Trail.names_cons, hnames]
    exact hfound _ (Trail.enter_name.mpr ⟨hshort, _, hdirectory, rfl⟩) hsame

/-- Where directories stay, a walk to a directory leads to the same names. -/
theorem exists_walk (hkept : ∀ names, root.HasDirectory names → other.HasDirectory names)
    (h : Leads root trail) {trail' : Trail} (h' : Leads other trail')
    (hnames : trail'.names = trail.names) (hwalk : walk root components trail = .ok last)
    (hlast : root.HasDirectory last.names) :
    ∃ last', walk other components trail' = .ok last' ∧ Leads other last' ∧
      last'.names = last.names := by
  induction components generalizing trail trail' with
  | nil =>
    obtain rfl := Except.ok.inj hwalk
    exact ⟨trail', rfl, h', hnames⟩
  | cons c rest ih =>
    obtain ⟨entries, next, hnode, hstep, hrest⟩ := walk_cons_eq_ok.mp hwalk
    have hleads := leads_enter h hnode hstep
    obtain ⟨entries', next', hnode', hstep', hleads', hsame⟩ :=
      exists_enter hkept h h' hnames hnode hstep (hasDirectory_of_walk hleads hrest hlast)
    obtain ⟨last', hwalk', hfound⟩ := ih hleads hleads' hsame hrest
    exact ⟨last', walk_cons_eq_ok.mpr ⟨entries', next', hnode', hstep', hwalk'⟩, hfound⟩

/-- Nothing that was a directory is anything else afterwards, and the work goes on in the same
place. -/
structure Keeps (fs after : FileSystem) : Prop where
  working : after.working = fs.working
  directories : ∀ names, fs.root.HasDirectory names → after.root.HasDirectory names

variable {fs after : FileSystem} {directory : List Component} {here : List String}
  {name text content : String}

theorem keeps_put {spot : List String} (hspot : ¬fs.root.HasDirectory spot) (node : Node) :
    Keeps fs (fs.put spot node) :=
  ⟨rfl, fun _ h => h.put hspot node⟩

theorem locate_eq_ok :
    fs.locate components = .ok last ↔
      ∃ start, Trail.follow? fs.working [] fs.root = some start ∧
        walk fs.root components start = .ok last := by
  rw [locate]
  cases Trail.follow? fs.working [] fs.root with
  | none => simp
  | some start => simp

theorem leads_start {start : Trail} (h : Trail.follow? fs.working [] fs.root = some start) :
    Leads fs.root start ∧ start.names = fs.working :=
  Leads.follow? (show Leads fs.root [] from trivial) h

theorem leads_locate (h : fs.locate components = .ok last) : Leads fs.root last := by
  obtain ⟨start, hstart, hwalk⟩ := locate_eq_ok.mp h
  exact leads_walk (leads_start hstart).1 hwalk

theorem enter_eq_ok :
    fs.enter directory = .ok here ↔
      ∃ last, fs.locate directory = .ok last ∧ last.names = here ∧ fs.root.HasDirectory here := by
  constructor
  · intro h
    obtain ⟨last, hlocate, hlast⟩ := except_bind_eq_ok.mp h
    cases hnode : last.node fs.root with
    | file content =>
      rw [hnode] at hlast
      cases hlast
    | directory entries =>
      rw [hnode] at hlast
      obtain rfl := Except.ok.inj hlast
      exact ⟨last, hlocate, rfl, (leads_locate hlocate).hasDirectory.mpr ⟨entries, hnode⟩⟩
  · intro ⟨last, hlocate, hnames, hhere⟩
    rw [← hnames] at hhere ⊢
    obtain ⟨entries, hnode⟩ := (leads_locate hlocate).hasDirectory.mp hhere
    refine except_bind_eq_ok.mpr ⟨last, hlocate, ?_⟩
    rw [hnode]
    rfl

/-- A directory is entered as before wherever directories stay. -/
theorem Keeps.enter (h : Keeps fs after) (henter : fs.enter directory = .ok here) :
    after.enter directory = .ok here := by
  obtain ⟨last, hlocate, hnames, hhere⟩ := enter_eq_ok.mp henter
  obtain ⟨start, hstart, hwalk⟩ := locate_eq_ok.mp hlocate
  obtain ⟨hleads, hworking⟩ := leads_start hstart
  have hlast : fs.root.HasDirectory last.names := hnames ▸ hhere
  have hthere := h.directories _ (hasDirectory_of_walk hleads hwalk hlast)
  rw [hworking, ← h.working] at hthere
  obtain ⟨entries, hfound⟩ := hthere
  obtain ⟨start', hstart'⟩ := Trail.exists_follow? hfound []
  obtain ⟨hleads', hworking'⟩ := leads_start hstart'
  have hsame : start'.names = start.names := by rw [hworking', hworking, h.working]
  obtain ⟨last', hwalk', -, hlast'⟩ :=
    exists_walk h.directories hleads hleads' hsame hwalk hlast
  have hnames' : last'.names = here := hlast'.trans hnames
  exact enter_eq_ok.mpr ⟨last', locate_eq_ok.mpr ⟨start', hstart', hwalk'⟩, hnames',
    h.directories _ hhere⟩

/-- What a name in a directory is looked up as. -/
theorem node?_name {node : Node} :
    fs.node? (directory ++ [.name name]) = .ok node ↔
      ∃ here, fs.enter directory = .ok here ∧ ¬nameLimit < name.utf8ByteSize ∧
        fs.root.find? (here ++ [name]) = some node := by
  have hlocate : fs.node? (directory ++ [.name name]) = .ok node ↔
      ∃ last, fs.locate (directory ++ [.name name]) = .ok last ∧ last.node fs.root = node := by
    rw [node?]
    cases fs.locate (directory ++ [.name name]) <;> simp [Except.map]
  rw [hlocate]
  constructor
  · intro ⟨last, hlast, hnode⟩
    obtain ⟨start, hstart, hwalk⟩ := locate_eq_ok.mp hlast
    obtain ⟨middle, hdirectory, hname⟩ := (walk_append _ _).mp hwalk
    obtain ⟨entries, next, hentries, hstep, hnext⟩ := walk_cons_eq_ok.mp hname
    obtain ⟨hshort, found, hfound, rfl⟩ := Trail.enter_name.mp hstep
    obtain rfl := Except.ok.inj hnext
    have hmiddle := locate_eq_ok.mpr ⟨start, hstart, hdirectory⟩
    have hleads := leads_locate hmiddle
    have henter := enter_eq_ok.mpr ⟨middle, hmiddle, rfl, hleads.hasDirectory.mpr ⟨_, hentries⟩⟩
    refine ⟨middle.names, henter, hshort, ?_⟩
    rw [hleads.find?_names_append hentries, hfound]
    exact congrArg some hnode
  · intro ⟨here, henter, hshort, hfind⟩
    obtain ⟨middle, hmiddle, hnames, hhere⟩ := enter_eq_ok.mp henter
    obtain ⟨start, hstart, hdirectory⟩ := locate_eq_ok.mp hmiddle
    have hleads := leads_locate hmiddle
    rw [← hnames] at hfind hhere
    obtain ⟨entries, hentries⟩ := hleads.hasDirectory.mp hhere
    rw [hleads.find?_names_append hentries] at hfind
    have hstep : middle.enter entries (.name name) = .ok ((name, node) :: middle) :=
      Trail.enter_name.mpr ⟨hshort, node, hfind, rfl⟩
    have hname : walk fs.root [.name name] middle = .ok ((name, node) :: middle) :=
      walk_cons_eq_ok.mpr ⟨entries, _, hentries, hstep, rfl⟩
    have hwalk := (walk_append _ _).mpr ⟨middle, hdirectory, hname⟩
    exact ⟨_, locate_eq_ok.mpr ⟨start, hstart, hwalk⟩, rfl⟩

theorem node?_of_enter (h : fs.enter directory = .ok here) :
    ∃ entries, fs.node? directory = .ok (.directory entries) := by
  obtain ⟨last, hlocate, rfl, hhere⟩ := enter_eq_ok.mp h
  obtain ⟨entries, hentries⟩ := (leads_locate hlocate).hasDirectory.mp hhere
  refine ⟨entries, ?_⟩
  rw [node?, hlocate, ← hentries]
  rfl

end FileSystem

end InventoryTokens.File
