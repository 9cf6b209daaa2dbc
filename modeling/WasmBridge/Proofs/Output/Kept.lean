import WasmBridge.Output.FileTree
import WasmBridge.Output.Generate
import WasmBridge.Proofs.Outcome

/-!
# What a failed output leaves behind

Bindings are made and formatted as a whole before any of them is written. So whatever
goes wrong up to there leaves all files as they were, and so does a directory that cannot
be made: what has been made of it by then are directories. But the files are written one
after the other, and the first that is refused ends the run. Those before it have been
written by then, and stay.
-/

namespace WasmBridge

open Outcome

variable {t t' t'' : FileTree} {place other dir : List Text} {path directory : Path}

/-! ## Places -/

namespace FileTree

theorem lookup_filter (nodes : List (List Text × Node)) (h : other ≠ place) :
    (nodes.filter fun n => n.1 ≠ place).lookup other = nodes.lookup other := by
  induction nodes with
  | nil => rfl
  | cons n nodes ih =>
    obtain ⟨name, node⟩ := n
    by_cases hname : name = place
    · have hother : (other == name) = false := by
        rw [beq_eq_false_iff_ne, hname]
        exact h
      rw [List.filter_cons_of_neg (by simpa using hname), ih, List.lookup_cons, hother]
    · rw [List.filter_cons_of_pos (by simpa using hname), List.lookup_cons, List.lookup_cons, ih]

theorem lookup_filter_self (nodes : List (List Text × Node)) :
    (nodes.filter fun n => n.1 ≠ place).lookup place = none := by
  rw [List.lookup_eq_none_iff]
  intro n hn
  have hname : n.1 ≠ place := of_decide_eq_true (List.mem_filter.mp hn).2
  exact bne_iff_ne.mpr hname.symm

theorem node?_put (node : Node) (hplace : place ≠ []) :
    (t.put place node).node? other = if other = place then some node else t.node? other := by
  unfold node? put
  by_cases htop : other = []
  · rw [if_pos htop, if_pos htop, if_neg]
    rintro rfl
    exact hplace htop
  · rw [if_neg htop, if_neg htop, List.lookup_append]
    by_cases hsame : other = place
    · rw [hsame, if_pos rfl, lookup_filter_self, List.lookup_cons, beq_self_eq_true]
      rfl
    · have hother : (other == place) = false := beq_eq_false_iff_ne.mpr hsame
      rw [if_neg hsame, lookup_filter _ hsame, List.lookup_cons, hother]
      exact Option.or_none

/-- The top is a directory. -/
theorem ne_nil_of_node? (h : t.node? place ≠ some .directory) : place ≠ [] := by
  rintro rfl
  exact h (if_pos rfl)

theorem put_put (first node : Node) : (t.put place first).put place node = t.put place node := by
  unfold put
  congr 1
  rw [List.filter_append, List.filter_filter]
  simp

/-- The text of the file in a place, if there is one. -/
def fileText? (t : FileTree) (place : List Text) : Option String :=
  match t.node? place with
  | some (.file text) => some text
  | _ => none

/-- All files are as they were, and there are no others. -/
def KeepsFiles (t t' : FileTree) : Prop := ∀ place, t'.fileText? place = t.fileText? place

theorem KeepsFiles.trans (h : KeepsFiles t t') (h' : KeepsFiles t' t'') : KeepsFiles t t'' :=
  fun place => (h' place).trans (h place)

/-- Every directory is still there, and relative paths start where they did. -/
structure Extends (t t' : FileTree) : Prop where
  directories : ∀ place, t.node? place = some .directory → t'.node? place = some .directory
  current : t'.current = t.current

/-- What is put where there was no directory takes none away. -/
theorem extends_put (node : Node) (h : t.node? place ≠ some .directory) :
    Extends t (t.put place node) := by
  refine ⟨fun other hother => ?_, rfl⟩
  rw [node?_put node (ne_nil_of_node? h), if_neg]
  · exact hother
  · rintro rfl
    exact h hother

theorem follow_append (names : List Text) (name : Text) :
    t.follow place (names ++ [name]) = t.follow place names >>= fun p => t.follow p [name] := by
  induction names generalizing place with
  | nil => rfl
  | cons first names ih =>
    rw [List.cons_append, follow, follow]
    cases t.node? place with
    | none => rfl
    | some node =>
      cases node with
      | file text => rfl
      | directory =>
        dsimp only
        split
        · rfl
        · exact ih

/-- A way through directories is still one as long as these are there. -/
theorem Extends.follow_eq {names : List Text} (h : Extends t t')
    (hfollow : t.follow place names = .ok other) : t'.follow place names = .ok other := by
  induction names generalizing place with
  | nil => exact hfollow
  | cons name names ih =>
    rw [follow] at hfollow ⊢
    cases hnode : t.node? place with
    | none => rw [hnode] at hfollow; cases hfollow
    | some node =>
      rw [hnode] at hfollow
      cases node with
      | file text => cases hfollow
      | directory =>
        rw [h.directories place hnode]
        dsimp only at hfollow ⊢
        split at hfollow
        · cases hfollow
        · rename_i hshort
          rw [if_neg hshort]
          exact ih hfollow

/-- A path leads to a directory in a place. -/
def LeadsTo (t : FileTree) (path : Path) (place : List Text) : Prop :=
  t.placeOf path = .ok place ∧ t.node? place = some .directory

theorem Extends.placeOf_eq (h : Extends t t') (hplace : t.placeOf path = .ok place) :
    t'.placeOf path = .ok place := by
  unfold placeOf at hplace ⊢
  rw [h.current]
  exact h.follow_eq hplace

theorem Extends.leadsTo (h : Extends t t') (hleads : t.LeadsTo path place) :
    t'.LeadsTo path place :=
  ⟨h.placeOf_eq hleads.1, h.directories place hleads.2⟩

theorem isDirectory_iff : t.isDirectory path = true ↔ ∃ place, t.LeadsTo path place := by
  unfold isDirectory LeadsTo
  cases t.placeOf path with
  | error cause => simp
  | ok place => simp

/-- What a name in a directory leads to. -/
theorem placeOf_child {name : Text} (hleads : t.LeadsTo directory dir) (hname : name ≠ "..")
    (h : t.placeOf (directory.child name) = .ok place) : place = dir ++ [name] := by
  unfold placeOf at h
  have hdir : t.follow _ directory.names = .ok dir := hleads.1
  have hchild : (directory.child name).names = directory.names ++ [name] := rfl
  have habsolute : (directory.child name).isAbsolute = directory.isAbsolute := rfl
  rw [hchild, habsolute, follow_append, hdir, bind_ok, follow, hleads.2] at h
  dsimp only at h
  split at h
  · cases h
  · exact (Except.ok.inj h).symm

/-! ## Operations -/

theorem visit_eq_ok {α : Type} {action : List Text → Except FileCause α} {a : α}
    (h : t.visit path action = .ok a) :
    ∃ place, t.placeOf path = .ok place ∧ action place = .ok a := by
  obtain ⟨_, -, h⟩ := bind_eq_ok.mp h
  exact bind_eq_ok.mp (mapError_eq_ok.mp h)

/-- A directory is made where there is nothing, or nothing happens. -/
theorem make_cases (t : FileTree) (path : Path) :
    (∃ e, t.make path = (.error e, t))
      ∨ ∃ place, t.placeOf path = .ok place ∧ t.node? place = none
        ∧ t.make path = (.ok (), t.put place .directory) := by
  unfold make
  dsimp only
  split
  · rename_i tree hmade
    obtain ⟨place, hplace, h⟩ := visit_eq_ok hmade
    split at h
    · cases h
    · rename_i hnode
      cases h
      exact .inr ⟨place, hplace, hnode, rfl⟩
  · rename_i e _
    exact .inl ⟨e, rfl⟩

/-- A file is written where there is no directory, or nothing happens; but a text without bytes
leaves an empty file. -/
theorem write_cases (t : FileTree) (path : Path) (text : Text) (isWritable : List Text → Bool) :
    (∃ e, t.write path text isWritable = (.error e, t))
      ∨ (∃ tree, t.write path text isWritable = (.error .unencodable, tree))
      ∨ ∃ place s, t.placeOf path = .ok place ∧ t.node? place ≠ some .directory
        ∧ text.toString? = some s
        ∧ t.write path text isWritable = (.ok (), t.put place (.file s)) := by
  unfold write
  cases hopen : t.openFile path isWritable with
  | error e => exact .inl ⟨e, rfl⟩
  | ok opened =>
    obtain ⟨place, tree⟩ := opened
    obtain ⟨place', hplace, h⟩ := visit_eq_ok hopen
    split at h
    · cases h
    · rename_i hnode
      split at h
      · cases h
        cases htext : text.toString? with
        | none => exact .inr (.inl ⟨_, rfl⟩)
        | some s =>
          refine .inr (.inr ⟨place, s, hplace, hnode, rfl, ?_⟩)
          dsimp only
          rw [put_put]
      · cases h

end FileTree

/-! ## The directory -/

variable {d d' : Disk}

/-- What making directories does: the files stay, and so do the directories. -/
structure Disk.OnlyDirectories (d d' : Disk) : Prop where
  files : d.tree.KeepsFiles d'.tree
  extends_tree : d.tree.Extends d'.tree

theorem Disk.OnlyDirectories.refl (d : Disk) : d.OnlyDirectories d :=
  ⟨fun _ => rfl, fun _ h => h, rfl⟩

theorem Disk.OnlyDirectories.trans {d'' : Disk} (h : d.OnlyDirectories d')
    (h' : d'.OnlyDirectories d'') : d.OnlyDirectories d'' :=
  ⟨h.files.trans h'.files, fun place hplace => h'.extends_tree.directories place
    (h.extends_tree.directories place hplace), h'.extends_tree.current.trans h.extends_tree.current⟩

open FileTree in
theorem onlyDirectories_make (h : d.tree.node? place = none) :
    d.OnlyDirectories { d with tree := d.tree.put place .directory } := by
  have hfree : d.tree.node? place ≠ some .directory := by rw [h]; exact nofun
  refine ⟨fun other => ?_, extends_put .directory hfree⟩
  unfold fileText?
  rw [node?_put .directory (ne_nil_of_node? hfree)]
  by_cases hother : other = place
  · rw [if_pos hother, hother, h]
  · rw [if_neg hother]

/-- How a directory is made sure of. -/
def Disk.Ensured (d : Disk) (path : Path) (out : Except FileError Unit × Disk) : Prop :=
  d.OnlyDirectories out.2 ∧ (out.1 = .ok () → ∃ place, out.2.tree.LeadsTo path place)

/-- A run goes on with what its first step gives and leaves. -/
theorem run_bind_of {σ α β : Type} {x : StateM σ α} {f : α → StateM σ β} {s s' : σ} {a : α}
    (h : x.run s = (a, s')) : (x >>= f).run s = (f a).run s' := by
  rw [StateT.run_bind, h]
  rfl

theorem makeDirectory_run (d : Disk) (path : Path) :
    (Workspace.makeDirectory path : StateM Disk _).run d
      = ((d.tree.make path).1, { d with tree := (d.tree.make path).2 }) := rfl

theorem isDirectory_run (d : Disk) (path : Path) :
    (Workspace.isDirectory path : StateM Disk _).run d = (d.tree.isDirectory path, d) := rfl

/-- A refusal counts for nothing if the directory is there. -/
theorem ensureDirectory_refused {refusal : FileRefusal}
    (hmake : d.tree.make path = (.error (.refused refusal), d.tree)) :
    (Workspace.ensureDirectory path : StateM Disk _).run d
      = (if refusal.cause ≠ .missing ∧ d.tree.isDirectory path = true then .ok ()
        else .error (.refused refusal), d) := by
  have hmake : (Workspace.makeDirectory path : StateM Disk _).run d
      = (.error (.refused refusal), d) := by rw [makeDirectory_run, hmake]
  unfold Workspace.ensureDirectory
  rw [run_bind_of hmake]
  dsimp only
  rw [run_bind_of (isDirectory_run d path)]
  split <;> rfl

/-- A directory is made in a place that is free, or it is there, or nothing happens. -/
theorem ensureDirectory_run (d : Disk) (path : Path) :
    d.Ensured path ((Workspace.ensureDirectory path : StateM Disk _).run d) := by
  rcases d.tree.make_cases path with ⟨e, hmake⟩ | ⟨place, hplace, hnode, hmake⟩
  · cases e with
    | refused refusal =>
      rw [ensureDirectory_refused hmake]
      refine ⟨.refl d, fun hok => ?_⟩
      split at hok
      · rename_i hthere
        exact FileTree.isDirectory_iff.mp hthere.2
      · cases hok
    | _ =>
      unfold Workspace.ensureDirectory
      rw [run_bind_of (makeDirectory_run d path), hmake]
      exact ⟨.refl d, nofun⟩
  · unfold Workspace.ensureDirectory
    rw [run_bind_of (makeDirectory_run d path), hmake]
    have hmade := onlyDirectories_make hnode
    refine ⟨hmade, fun _ => ⟨place, hmade.extends_tree.placeOf_eq hplace, ?_⟩⟩
    have hfree : d.tree.node? place ≠ some .directory := by rw [hnode]; exact nofun
    exact (FileTree.node?_put .directory (FileTree.ne_nil_of_node? hfree)).trans (if_pos rfl)

theorem Disk.Ensured.of_error {e : FileError} (h : d.OnlyDirectories d') :
    d.Ensured path (.error e, d') := ⟨h, nofun⟩

/-- The same for a directory and those on the way to it. -/
theorem ensureDirectories_run (d : Disk) (path : Path) (room : Nat) :
    d.Ensured path ((Workspace.ensureDirectories path room : StateM Disk _).run d) := by
  induction room using Nat.strongRecOn generalizing path d with
  | ind room ih =>
    have hfirst := ensureDirectory_run d path
    unfold Workspace.ensureDirectories
    rcases hrun : (Workspace.ensureDirectory path : StateM Disk _).run d with ⟨result, d'⟩
    rw [hrun] at hfirst
    rw [run_bind_of hrun]
    split
    · split
      · split
        · exact .of_error hfirst.1
        · -- what is missing above the directory is made first
          rename_i above
          have habove := ih above (Nat.lt_succ_self above) d' path.parent
          rcases hrest : (Workspace.ensureDirectories path.parent above : StateM Disk _).run d'
            with ⟨made, d''⟩
          rw [hrest] at habove
          have hsofar := hfirst.1.trans habove.1
          rw [run_bind_of hrest]
          split
          · have hlast := ensureDirectory_run d'' path
            exact ⟨hsofar.trans hlast.1, hlast.2⟩
          · exact .of_error hsofar
      · exact .of_error hfirst.1
    · exact hfirst

/-! ## Files that are written -/

/-- Some files are written into a directory, and nothing else happens to files. -/
structure FileTree.WrittenInto (t t' : FileTree) (dir : List Text) (files : List (Text × Text)) :
    Prop where
  texts : ∀ f ∈ files, ∃ s, f.2.toString? = some s ∧ t'.fileText? (dir ++ [f.1]) = some s
  others : ∀ place, (∀ f ∈ files, place ≠ dir ++ [f.1]) → t'.fileText? place = t.fileText? place

namespace FileTree.WrittenInto

variable {files : List (Text × Text)} {name text : Text} {s : String}

theorem nil (dir : List Text) : t.WrittenInto t dir [] := ⟨nofun, fun _ _ => rfl⟩

theorem fileText?_put (hfree : t.node? place ≠ some .directory) :
    (t.put place (.file s)).fileText? other
      = if other = place then some s else t.fileText? other := by
  unfold fileText?
  rw [node?_put _ (ne_nil_of_node? hfree)]
  by_cases hother : other = place
  · rw [if_pos hother, if_pos hother]
  · rw [if_neg hother, if_neg hother]

/-- A file is written before others that have other names. -/
theorem cons (hfree : t.node? (dir ++ [name]) ≠ some .directory) (htext : text.toString? = some s)
    (hname : name ∉ files.map (·.1))
    (h : (t.put (dir ++ [name]) (.file s)).WrittenInto t' dir files) :
    t.WrittenInto t' dir ((name, text) :: files) := by
  have hother : ∀ f ∈ files, dir ++ [name] ≠ dir ++ [f.1] := by
    intro f hf heq
    have hsame : name = f.1 := by simpa using heq
    exact hname (hsame ▸ List.mem_map_of_mem hf)
  constructor
  · intro f hf
    rcases List.mem_cons.mp hf with rfl | hf
    · exact ⟨s, htext, (h.others _ hother).trans ((fileText?_put hfree).trans (if_pos rfl))⟩
    · exact h.texts f hf
  · intro place hplace
    obtain ⟨hfirst, hrest⟩ := List.forall_mem_cons.mp hplace
    exact (h.others place hrest).trans ((fileText?_put hfree).trans (if_neg hfirst))

/-- What has been kept before is as good as what there was. -/
theorem of_keepsFiles (hkeeps : t.KeepsFiles t') (h : t'.WrittenInto t'' dir files) :
    t.WrittenInto t'' dir files :=
  ⟨h.texts, fun place hplace => (h.others place hplace).trans (hkeeps place)⟩

/-- Nothing has changed exactly if every file was there already with the text that it has now. -/
theorem keepsFiles_iff (h : t.WrittenInto t' dir files) :
    t.KeepsFiles t' ↔ ∀ f ∈ files, t.fileText? (dir ++ [f.1]) = f.2.toString? := by
  constructor
  · intro hkeeps f hf
    obtain ⟨s, htext, hfile⟩ := h.texts f hf
    rw [htext, ← hfile]
    exact (hkeeps _).symm
  · intro hthere place
    by_cases hplace : ∃ f ∈ files, place = dir ++ [f.1]
    · obtain ⟨f, hf, rfl⟩ := hplace
      obtain ⟨s, htext, hfile⟩ := h.texts f hf
      rw [hfile, hthere f hf, htext]
    · exact h.others place fun f hf heq => hplace ⟨f, hf, heq⟩

end FileTree.WrittenInto

theorem writeFile_run (d : Disk) (path : Path) (text : Text) :
    (Workspace.writeFile path text : StateM Disk _).run d
      = ((d.tree.write path text d.isWritable).1,
          { d with tree := (d.tree.write path text d.isWritable).2 }) := rfl

/-- **Writing stops at the first file that is refused**, and those before it have been written. -/
theorem writeFiles_run {files : List (Text × Text)} {e : GenerateError}
    (hleads : d.tree.LeadsTo directory dir) (hnames : (files.map (·.1)).Nodup)
    (hup : ∀ f ∈ files, f.1 ≠ "..")
    (h : ((writeFiles directory files : StateM Disk _).run d).1.2 = .error e)
    (hasked : ∀ cause, e ≠ .path cause) :
    ∃ written late rest refusal, files = written ++ late :: rest
      ∧ e = .output (.file (directory.child late.1) refusal)
      ∧ ((writeFiles directory files : StateM Disk _).run d).2.tree.LeadsTo directory dir
      ∧ d.tree.WrittenInto ((writeFiles directory files : StateM Disk _).run d).2.tree dir
        written := by
  induction files generalizing d with
  | nil => cases h
  | cons f files ih =>
    obtain ⟨name, text⟩ := f
    obtain ⟨hname, hnames⟩ := List.nodup_cons.mp hnames
    obtain ⟨hnotUp, hup⟩ := List.forall_mem_cons.mp hup
    unfold writeFiles at h ⊢
    dsimp only at h ⊢
    rw [run_bind_of (writeFile_run d _ text)] at h ⊢
    rcases d.tree.write_cases (directory.child name) text d.isWritable with
      ⟨cause, hwrite⟩ | ⟨tree, hwrite⟩ | ⟨place, s, hplace, hfree, htext, hwrite⟩
    · rw [hwrite] at h ⊢
      cases cause with
      | refused refusal =>
        cases h
        exact ⟨[], (name, text), files, refusal, rfl, rfl, hleads, .nil dir⟩
      | _ =>
        cases h
        exact absurd rfl (hasked _)
    · rw [hwrite] at h
      cases h
      exact absurd rfl (hasked _)
    · rw [hwrite] at h ⊢
      obtain rfl := FileTree.placeOf_child hleads hnotUp hplace
      have hstill := (FileTree.extends_put (.file s) hfree).leadsTo hleads
      rcases hrest : (writeFiles directory files : StateM Disk _).run
          { d with tree := d.tree.put (dir ++ [name]) (.file s) } with ⟨⟨paths, result⟩, d'⟩
      dsimp only at h ⊢
      rw [run_bind_of hrest] at h ⊢
      obtain ⟨written, late, rest, refusal, rfl, he, hafter, hwritten⟩ :=
        ih hstill hnames hup (by rw [hrest]; exact h)
      rw [hrest] at hafter hwritten
      have hnew : name ∉ written.map (·.1) := by
        intro hmem
        rw [List.map_append] at hname
        exact hname (List.mem_append_left _ hmem)
      exact ⟨(name, text) :: written, late, rest, refusal, rfl, he, hafter,
        .cons hfree htext hnew hwritten⟩

/-- What is left behind of some files: nothing if none of them has been refused, else those before
the one that has been. -/
def Disk.LeftBehind (d : Disk) (directory : Path) (files : List (Text × Text)) (e : GenerateError)
    (after : FileTree) : Prop :=
  (d.tree.KeepsFiles after ∧ ∀ path refusal, e ≠ .output (.file path refusal))
    ∨ ∃ dir written late rest refusal, files = written ++ late :: rest
      ∧ e = .output (.file (directory.child late.1) refusal)
      ∧ after.LeadsTo directory dir
      ∧ d.tree.WrittenInto after dir written

theorem writeBindings_run {files : List (Text × Text)} {e : GenerateError}
    (hnames : (files.map (·.1)).Nodup) (hup : ∀ f ∈ files, f.1 ≠ "..")
    (h : ((writeBindings files directory : StateM Disk _).run d).1.2 = .error e)
    (hasked : ∀ cause, e ≠ .path cause) :
    d.LeftBehind directory files e
      ((writeBindings files directory : StateM Disk _).run d).2.tree := by
  have hensured := ensureDirectories_run d directory callRoom
  rcases hmade : (Workspace.ensureDirectories directory : StateM Disk _).run d with ⟨made, d'⟩
  rw [hmade] at hensured
  unfold writeBindings at h ⊢
  rw [run_bind_of hmade] at h ⊢
  cases made with
  | error cause =>
    refine .inl ⟨hensured.1.files, ?_⟩
    cases cause with
    | refused refusal => cases h; exact fun _ _ => nofun
    | _ => cases h; exact absurd rfl (hasked _)
  | ok =>
    obtain ⟨dir, hleads⟩ := hensured.2 rfl
    obtain ⟨written, late, rest, refusal, hfiles, he, hafter, hwritten⟩ :=
      writeFiles_run hleads hnames hup h hasked
    exact .inr ⟨dir, written, late, rest, refusal, hfiles, he, hafter,
      .of_keepsFiles hensured.1.files hwritten⟩

/-! ## Bindings -/

/-- The names of the files of a target. -/
def Target.fileNames : Target → List Text
  | .rustPlugin => ["types.rs", "functions.rs", "mod.rs"]
  | .wasmerRuntime => ["types.rs", "bindings.rs"]
  | .typeScriptRuntime => ["types.ts", "index.ts"]

theorem Target.fileNames_nodup (target : Target) : target.fileNames.Nodup := by
  cases target <;> decide

theorem Target.not_up_of_mem_fileNames {target : Target} {name : Text}
    (h : name ∈ target.fileNames) : name ≠ ".." := by
  revert name
  cases target <;> decide

section Bindings

variable {ν : Type} [Label ν] {i : Interface ν} {settings : Settings} {tools : Toolbox}
  {formatters : List Formatter} {name : Text} {files : List (Text × Text)}

theorem names_files {s : BindingSource ν} {target : Target} (h : s.files target = .ok files) :
    files.map (·.1) = target.fileNames := by
  cases target with
  | rustPlugin | wasmerRuntime | typeScriptRuntime =>
    obtain ⟨b, -, rfl⟩ := map_eq_ok.mp h
    rfl

/-- Formatting leaves the names of the files as they are. -/
theorem names_rendered (h : i.render settings tools formatters name = .ok files) :
    ∃ target : Target, files.map (·.1) = target.fileNames := by
  unfold Interface.render at h
  split at h
  · cases h
  · rename_i target _
    obtain ⟨declared, -, h⟩ := bind_eq_ok.mp h
    obtain ⟨made, hmade, h⟩ := bind_eq_ok.mp h
    refine ⟨target, ?_⟩
    rw [← names_files (mapError_eq_ok.mp hmade)]
    refine map_eq_of_mapM h fun f formatted hf => ?_
    obtain ⟨text, -, hf⟩ := bind_eq_ok.mp hf
    cases hf
    rfl

theorem failsOnly_mapError {ε ε' α : Type} {P : ε' → Prop} {x : Except ε α} {f : ε → ε'}
    (h : ∀ e, P (f e)) : FailsOnly P (x.mapError f) := by
  cases x with
  | ok a => exact failsOnly_ok a
  | error e => exact failsOnly_error (h e)

/-- Nothing is refused while bindings are made and formatted. -/
theorem render_failsOnly : FailsOnly (fun e => ∀ cause, e ≠ .output cause)
    (i.render settings tools formatters name) := by
  unfold Interface.render
  split
  · exact failsOnly_error fun _ => nofun
  · refine (failsOnly_mapError fun _ _ => nofun).bind fun _ _ => ?_
    refine (failsOnly_mapError fun _ _ => nofun).bind fun files _ => ?_
    exact failsOnly_mapM fun f _ =>
      (failsOnly_mapError fun _ _ => nofun).bind fun _ _ => failsOnly_ok _

/-- A failed run leaves nothing behind, or what writing the bindings does. -/
theorem generate_leftBehind {directory : Path} {d : Disk} {e : GenerateError}
    (h : ((i.generate settings name directory tools formatters : StateM Disk _).run d).1
      = .error e)
    (hasked : ∀ cause, e ≠ .path cause) :
    let after :=
      ((i.generate settings name directory tools formatters : StateM Disk _).run d).2.tree
    (d.tree.KeepsFiles after ∧ ∀ path refusal, e ≠ .output (.file path refusal))
      ∨ ∃ files, i.render settings tools formatters name = .ok files
        ∧ d.LeftBehind directory files e after := by
  intro after
  unfold after
  unfold Interface.generate at h ⊢
  cases hrender : i.render settings tools formatters name with
  | error cause =>
    rw [hrender] at h
    cases h
    exact .inl ⟨fun _ => rfl, fun _ _ => render_failsOnly _ hrender _⟩
  | ok files =>
    obtain ⟨known, hnames⟩ := names_rendered hrender
    rw [hrender] at h
    dsimp only at h ⊢
    rcases hwrite : (writeBindings files directory : StateM Disk _).run d
      with ⟨⟨paths, result⟩, d'⟩
    rw [run_bind_of hwrite] at h ⊢
    cases result with
    | ok => cases h
    | error cause =>
      cases h
      have hleft := writeBindings_run (d := d) (hnames ▸ known.fileNames_nodup)
        (fun f hf => Target.not_up_of_mem_fileNames (hnames ▸ List.mem_map_of_mem hf))
        (by rw [hwrite]) hasked
      rw [hwrite] at hleft
      exact .inr ⟨files, rfl, hleft⟩

end Bindings

/--
**What is left behind when bindings cannot be generated.** Either all files are as they
were; so it is when no file has been refused. Or a file has been refused, and exactly the
files that come before it have been written. In that case, too, all files are as they were
if each of those was there already with the same text, but not otherwise.

Errors of a path or a text that cannot even be asked for are left out.
-/
theorem files_kept_iff {ν : Type} [Label ν] {i : Interface ν} {settings : Settings} {target : Text}
    {directory : Path} {tools : Toolbox} {formatters : List Formatter} {d : Disk}
    {e : GenerateError}
    (h : ((i.generate settings target directory tools formatters : StateM Disk _).run d).1
      = .error e)
    (hasked : ∀ cause, e ≠ .path cause) :
    let after :=
      ((i.generate settings target directory tools formatters : StateM Disk _).run d).2.tree
    (d.tree.KeepsFiles after ∧ ∀ path refusal, e ≠ .output (.file path refusal))
      ∨ ∃ dir written late rest refusal,
          i.render settings tools formatters target = .ok (written ++ late :: rest)
          ∧ e = .output (.file (directory.child late.1) refusal)
          ∧ after.LeadsTo directory dir
          ∧ d.tree.WrittenInto after dir written
          ∧ (d.tree.KeepsFiles after
            ↔ ∀ f ∈ written, d.tree.fileText? (dir ++ [f.1]) = f.2.toString?) := by
  intro after
  rcases generate_leftBehind h hasked with hkeeps | ⟨files, hrender, hleft⟩
  · exact .inl hkeeps
  · rcases hleft with hkeeps | ⟨dir, written, late, rest, refusal, rfl, he, hleads, hwritten⟩
    · exact .inl hkeeps
    · exact .inr ⟨dir, written, late, rest, refusal, hrender, he, hleads, hwritten,
        hwritten.keepsFiles_iff⟩

namespace BlockedFile

/-- Nothing crosses the boundary. -/
def nothing : Interface Text := ⟨.empty, .empty, [], []⟩

/-- Where the file of functions belongs there is a directory. -/
def disk : Disk where
  tree := ⟨[(["work"], .directory), (["work", "out"], .directory),
    (["work", "out", "functions.rs"], .directory)], ["work"]⟩
  isWritable _ := true

def refused : GenerateError :=
  .output (.file ⟨"", ["out", "functions.rs"]⟩ ⟨.isDirectory, ⟨"", ["out", "functions.rs"]⟩⟩)

/-- The bindings of a guest, written on that disk. -/
def outcome : Except GenerateError (List (Text × Path)) × Disk :=
  (nothing.generate {} "rust-plugin" ⟨"", ["out"]⟩ : StateM Disk _).run disk

theorem outcome_refused : outcome.1 = .error refused := by
  have hrefused : (match outcome.1 with
      | .error e => decide (e = refused)
      | .ok _ => false) = true := by decide +kernel
  revert hrefused
  cases outcome.1 with
  | error e => exact fun h => congrArg Except.error (of_decide_eq_true h)
  | ok paths => exact nofun

theorem types_written : (outcome.2.tree.fileText? ["work", "out", "types.rs"]).isSome = true := by
  decide +kernel

end BlockedFile

/-- The file of types has been written when the file of functions is refused. -/
theorem files_kept_iff_blocked :
    BlockedFile.outcome.1 = .error BlockedFile.refused
      ∧ (∀ cause, BlockedFile.refused ≠ .path cause)
      ∧ ¬BlockedFile.disk.tree.KeepsFiles BlockedFile.outcome.2.tree
      ∧ ∃ dir written, written ≠ []
        ∧ BlockedFile.disk.tree.WrittenInto BlockedFile.outcome.2.tree dir written := by
  have hasked : ∀ cause, BlockedFile.refused ≠ .path cause := fun _ => nofun
  have hleft := files_kept_iff BlockedFile.outcome_refused hasked
  have hwritten : ¬BlockedFile.disk.tree.KeepsFiles BlockedFile.outcome.2.tree := by
    intro hkeeps
    have htypes := BlockedFile.types_written
    rw [hkeeps] at htypes
    cases htypes
  refine ⟨BlockedFile.outcome_refused, hasked, hwritten, ?_⟩
  rcases hleft with hkeeps | ⟨dir, written, late, rest, refusal, -, -, -, hinto, hiff⟩
  · exact absurd hkeeps.1 hwritten
  · refine ⟨dir, written, ?_, hinto⟩
    rintro rfl
    exact hwritten (hiff.mpr nofun)

end WasmBridge
