import Zemo.Lib.Checked
import Zemo.Lib.Texts

set_option autoImplicit false

/-! # Access to the folders of the user

A folder that the user picks, or that was stored, is compared as a text with the places that are
protected. The file system reads the path behind the text: it resolves dots, and links on every
component. What the standard library and the file system answer is given (`System`); what a path
denotes is given by a virtual file system (`FileSystem`). -/

namespace Zemo.Desktop

open Texts

/-! ## Paths as texts -/

/-- `UserContentKind`. -/
inductive UserContentKind where
  | desktop | documents | downloads | pictures | movies | music
  deriving DecidableEq, Repr

/-- `normalize_path`. -/
def normalizePath (path : Text) : Text :=
  (path.map fun c => if c = '\\' then '/' else c).map Char.toLower

/-- `forbidden_markers`. -/
def forbiddenMarkers : List Text :=
  ["/system", "/library", "/applications", "/private/var/db", "/usr", "/bin", "/sbin",
    "/opt/homebrew", "c:/windows", "c:/windows/system32", "c:/program files",
    "c:/program files (x86)", "c:/programdata", "/windows", "/program files",
    "/program files (x86)", "/programdata"].map String.toList

/-- `is_forbidden_path`. -/
def isForbiddenPath (path : Text) : Bool :=
  let normalized := normalizePath path
  normalized = ['/'] || normalized ∈ ["c:".toList, "c:/".toList, "c:\\".toList]
    || forbiddenMarkers.any fun marker =>
      normalized = marker || (marker ++ ['/']).isPrefixOf normalized
        || (marker ++ ['\\']).isPrefixOf normalized

/-- `contains`. -/
def contains (text part : Text) : Bool := (find part text).isSome

/-! ## The calls -/

/-- What the standard library and the file system answer. `symlink` is the target of a path that
`symlink_metadata` shows to be a link and `read_link` can read. -/
structure System where
  parent : Text → Option Text
  isAbsolute : Text → Bool
  join : Text → Text → Text
  symlink : Text → Option Text
  isDir : Text → Bool
  pathExists : Text → Bool
  canonicalize : Text → Option Text
  homeDir : Option Text
  knownDir : UserContentKind → Option Text

section

variable (system : System)

/-- The text of a path starts with the text of the home folder. -/
def startsWithHome (path : Text) : Bool :=
  system.homeDir.any fun home => (normalizePath home).isPrefixOf (normalizePath path)

/-- `is_safe_user_content_target`. -/
def isSafeUserContentTarget (path : Text) : Bool :=
  let normalized := normalizePath path
  if isForbiddenPath path then false
  else if contains normalized "/library/mobile documents".toList
      || contains normalized "icloud".toList then true
  else if startsWithHome system path then
    !contains normalized "/library/".toList || contains normalized "mobile documents".toList
  else
    contains normalized "onedrive".toList || contains normalized "/users/".toList
      || contains normalized "/home/".toList

/-- Where a link leads to. -/
def follow (path target : Text) : Text :=
  if system.isAbsolute target then target
  else ((system.parent path).map fun parent => system.join parent target).getD target

/-- The loop of `resolve_user_content_path`, from the path that is asked for. -/
def resolveLoop (asked : Text) : Nat → Text → Text
  | 0, current => current
  | turns + 1, current =>
      if isForbiddenPath current then asked
      else
        match system.symlink current with
        | none => current
        | some target =>
            let resolved := follow system current target
            if isForbiddenPath resolved || !isSafeUserContentTarget system resolved then asked
            else resolveLoop asked turns resolved

/-- `resolve_user_content_path`. -/
def resolveUserContentPath (path : Text) : Text := resolveLoop system path 3 path

/-- `resolve_native_path`. -/
def resolveNativePath (kind : UserContentKind) : Option Text :=
  (system.knownDir kind).map (resolveUserContentPath system)

/-- `same_dir`. -/
def sameDir (left right : Text) : Bool :=
  let left := (system.canonicalize left).getD left
  let right := (system.canonicalize right).getD right
  left = right || normalizePath left = normalizePath right

/-- `accept_authorized_selection`. -/
def acceptAuthorizedSelection (kind : UserContentKind) (selected : Text) : Option Text :=
  let resolved := resolveUserContentPath system selected
  if isForbiddenPath resolved || (system.parent resolved).isNone then none
  else if !system.isDir resolved then none
  else
    match resolveNativePath system kind with
    | some expected =>
        if sameDir system resolved expected then some resolved
        else if isSafeUserContentTarget system resolved then some resolved
        else none
    | none => if isSafeUserContentTarget system resolved then some resolved else none

/-- `load_bookmark`, of what is stored for a kind. -/
def loadBookmark (stored : Option Text) : Option Text :=
  stored.filter fun path => system.pathExists path && !isForbiddenPath path

end

/-! ## What a path denotes -/

/-- A directory: the volume, and the names from its root on. -/
structure Place where
  volume : Text
  names : List Text
  deriving DecidableEq

/-- One step of a path. -/
inductive Step where
  | volume (name : Text)
  | root
  | here
  | up
  | name (name : Text)
  deriving DecidableEq

/-- What a directory has under a name: a directory, under the name it is stored as, or a link. -/
inductive Entry where
  | directory (stored : Text)
  | link (target : Text)
  deriving DecidableEq

/-- A virtual file system. -/
structure FileSystem where
  volume : Text → Option Text
  entry : Place → Text → Option Entry

/-- Steps lead from a directory to another one, through any links. -/
inductive FileSystem.Walks (files : FileSystem) (steps : Text → List Step) :
    Place → List Step → Place → Prop
  | done (place : Place) : Walks files steps place [] place
  | volume {place last : Place} {name stored : Text} {rest : List Step}
      (hvolume : files.volume name = some stored)
      (hrest : Walks files steps ⟨stored, []⟩ rest last) :
      Walks files steps place (.volume name :: rest) last
  | root {place last : Place} {rest : List Step}
      (hrest : Walks files steps ⟨place.volume, []⟩ rest last) :
      Walks files steps place (.root :: rest) last
  | here {place last : Place} {rest : List Step} (hrest : Walks files steps place rest last) :
      Walks files steps place (.here :: rest) last
  | up {place last : Place} {rest : List Step}
      (hrest : Walks files steps ⟨place.volume, place.names.dropLast⟩ rest last) :
      Walks files steps place (.up :: rest) last
  | directory {place last : Place} {name stored : Text} {rest : List Step}
      (hentry : files.entry place name = some (.directory stored))
      (hrest : Walks files steps ⟨place.volume, place.names ++ [stored]⟩ rest last) :
      Walks files steps place (.name name :: rest) last
  | link {place last : Place} {name target : Text} {rest : List Step}
      (hentry : files.entry place name = some (.link target))
      (hrest : Walks files steps place (steps target ++ rest) last) :
      Walks files steps place (.name name :: rest) last

/-- The text of a directory. -/
def Place.text (place : Place) : Text := place.volume ++ place.names.flatMap ('/' :: ·)

/-- A root, a place of the list, or below one. -/
def Place.Protected (place : Place) : Prop :=
  place.names = [] ∨ ∃ marker ∈ forbiddenMarkers,
    normalizePath place.text = marker ∨ marker ++ ['/'] <+: normalizePath place.text

/-- The steps of paths, from the working directory on. -/
structure Reading where
  files : FileSystem
  steps : Text → List Step
  working : Place

/-- The directory that a path denotes. -/
def Reading.Denotes (reading : Reading) (path : Text) (place : Place) : Prop :=
  reading.files.Walks reading.steps reading.working (reading.steps path) place

/-- The answers are those of a file system: a path that is a link ends on a name that is one; what
a relative target is joined to stands for the steps before that name; an absolute one starts at a
volume. -/
structure Reading.Answers (reading : Reading) (system : System) : Prop where
  symlink : ∀ path target, system.symlink path = some target →
    ∃ before name place, reading.steps path = before ++ [.name name] ∧
      reading.files.Walks reading.steps reading.working before place ∧
      reading.files.entry place name = some (.link target)
  relative : ∀ path target before name, system.symlink path = some target →
    system.isAbsolute target = false → reading.steps path = before ++ [.name name] →
    ∃ parent, system.parent path = some parent ∧
      ∀ place, reading.Denotes (system.join parent target) place ↔
        reading.files.Walks reading.steps reading.working (before ++ reading.steps target) place
  absolute : ∀ target, system.isAbsolute target = true →
    ∃ name rest, reading.steps target = .volume name :: rest

/-- The components of a path as the code compares them. -/
def components (path : Text) : List Text :=
  ((normalizePath path).splitOn '/').filter (· ≠ [])

/-! ## What is asked of the checks -/

/-- No path that is returned denotes a protected directory. -/
def Reading.Harmless (reading : Reading) (returned : Option Text) : Prop :=
  ∀ path ∈ returned, ∀ place, reading.Denotes path place → ¬place.Protected

/-- A path is taken to be inside the home folder only if that is a part of its components. -/
def HomeByComponents (system : System) (path : Text) : Prop :=
  startsWithHome system path = true →
    ∃ home ∈ system.homeDir, components home <+: components path

/-- The selection is refused by the text that it stands for after at most three links. -/
def RefusedByText (system : System) (kind : UserContentKind) (selected : Text) : Prop :=
  let resolved := resolveUserContentPath system selected
  isForbiddenPath resolved = true ∨ system.parent resolved = none ∨
    system.isDir resolved = false ∨
    (∀ expected ∈ resolveNativePath system kind, sameDir system resolved expected = false) ∧
      isSafeUserContentTarget system resolved = false

/-- The text of the home folder, where a path starts with it, ends with a separator, or is followed
by one, or by nothing. -/
def HomeEndsComponent (system : System) (path : Text) : Prop :=
  ∀ home ∈ system.homeDir, ∀ rest, normalizePath path = normalizePath home ++ rest →
    normalizePath home = [] ∨ (normalizePath home).getLast? = some '/' ∨ rest = [] ∨
      rest.head? = some '/'

/-! ## Walks -/

section

variable {files : FileSystem} {steps : Text → List Step} {place last : Place}

/-- A walk over steps and further ones pauses between the two. -/
theorem FileSystem.Walks.split {all : List Step} (h : files.Walks steps place all last)
    {before after : List Step} (hall : all = before ++ after) :
    ∃ pause, files.Walks steps place before pause ∧ files.Walks steps pause after last := by
  induction h generalizing before with
  | done place =>
    obtain ⟨rfl, rfl⟩ := List.append_eq_nil_iff.1 hall.symm
    exact ⟨place, .done place, .done place⟩
  | @volume place last name stored rest hvolume hrest ih =>
    cases before with
    | nil =>
      obtain rfl : _ = after := hall
      exact ⟨place, .done place, .volume hvolume hrest⟩
    | cons step before =>
      obtain ⟨rfl, hrest'⟩ := List.cons.inj hall
      obtain ⟨pause, hbefore, hafter⟩ := ih hrest'
      exact ⟨pause, .volume hvolume hbefore, hafter⟩
  | @root place last rest hrest ih =>
    cases before with
    | nil =>
      obtain rfl : _ = after := hall
      exact ⟨place, .done place, .root hrest⟩
    | cons step before =>
      obtain ⟨rfl, hrest'⟩ := List.cons.inj hall
      obtain ⟨pause, hbefore, hafter⟩ := ih hrest'
      exact ⟨pause, .root hbefore, hafter⟩
  | @here place last rest hrest ih =>
    cases before with
    | nil =>
      obtain rfl : _ = after := hall
      exact ⟨place, .done place, .here hrest⟩
    | cons step before =>
      obtain ⟨rfl, hrest'⟩ := List.cons.inj hall
      obtain ⟨pause, hbefore, hafter⟩ := ih hrest'
      exact ⟨pause, .here hbefore, hafter⟩
  | @up place last rest hrest ih =>
    cases before with
    | nil =>
      obtain rfl : _ = after := hall
      exact ⟨place, .done place, .up hrest⟩
    | cons step before =>
      obtain ⟨rfl, hrest'⟩ := List.cons.inj hall
      obtain ⟨pause, hbefore, hafter⟩ := ih hrest'
      exact ⟨pause, .up hbefore, hafter⟩
  | @directory place last name stored rest hentry hrest ih =>
    cases before with
    | nil =>
      obtain rfl : _ = after := hall
      exact ⟨place, .done place, .directory hentry hrest⟩
    | cons step before =>
      obtain ⟨rfl, hrest'⟩ := List.cons.inj hall
      obtain ⟨pause, hbefore, hafter⟩ := ih hrest'
      exact ⟨pause, .directory hentry hbefore, hafter⟩
  | @link place last name target rest hentry hrest ih =>
    cases before with
    | nil =>
      obtain rfl : _ = after := hall
      exact ⟨place, .done place, .link hentry hrest⟩
    | cons step before =>
      obtain ⟨rfl, rfl⟩ := List.cons.inj hall
      obtain ⟨pause, hbefore, hafter⟩ := ih (List.append_assoc _ _ _).symm
      exact ⟨pause, .link hentry hbefore, hafter⟩

/-- Walks can be made one after the other. -/
theorem FileSystem.Walks.append {before after : List Step} {pause : Place}
    (h : files.Walks steps place before pause) (hafter : files.Walks steps pause after last) :
    files.Walks steps place (before ++ after) last := by
  induction h with
  | done place => exact hafter
  | volume hvolume _ ih => exact .volume hvolume (ih hafter)
  | root _ ih => exact .root (ih hafter)
  | here _ ih => exact .here (ih hafter)
  | up _ ih => exact .up (ih hafter)
  | directory hentry _ ih => exact .directory hentry (ih hafter)
  | link hentry _ ih =>
    have hrest := ih hafter
    rw [List.append_assoc] at hrest
    exact .link hentry hrest

/-- Steps lead to one directory at most. -/
theorem FileSystem.Walks.unique {all : List Step} {last' : Place}
    (h : files.Walks steps place all last) (h' : files.Walks steps place all last') :
    last = last' := by
  induction h with
  | done place =>
    cases h'
    rfl
  | volume hvolume _ ih =>
    cases h' with
    | volume hvolume' hrest' =>
      obtain rfl := Option.some.inj (hvolume.symm.trans hvolume')
      exact ih hrest'
  | root _ ih =>
    cases h' with
    | root hrest' => exact ih hrest'
  | here _ ih =>
    cases h' with
    | here hrest' => exact ih hrest'
  | up _ ih =>
    cases h' with
    | up hrest' => exact ih hrest'
  | directory hentry _ ih =>
    cases h' with
    | directory hentry' hrest' =>
      obtain rfl := Entry.directory.inj (Option.some.inj (hentry.symm.trans hentry'))
      exact ih hrest'
    | link hentry' _ => exact nomatch hentry.symm.trans hentry'
  | link hentry _ ih =>
    cases h' with
    | directory hentry' _ => exact nomatch hentry.symm.trans hentry'
    | link hentry' hrest' =>
      obtain rfl := Entry.link.inj (Option.some.inj (hentry.symm.trans hentry'))
      exact ih hrest'

end

/-! ## The links that are followed -/

section

variable {reading : Reading} {system : System}

/-- A path that is a link denotes what the path denotes that it leads to. -/
theorem Reading.Answers.denotes_follow (h : reading.Answers system) {path target : Text}
    (hlink : system.symlink path = some target) (place : Place) :
    reading.Denotes (follow system path target) place ↔ reading.Denotes path place := by
  obtain ⟨before, name, folder, hsteps, hbefore, hentry⟩ := h.symlink path target hlink
  -- the link stands for the steps of its target
  have hpath : reading.Denotes path place ↔
      reading.files.Walks reading.steps folder (reading.steps target) place := by
    unfold Reading.Denotes
    rw [hsteps]
    constructor
    · intro hwalk
      obtain ⟨pause, hpause, hname⟩ := hwalk.split rfl
      obtain rfl := hpause.unique hbefore
      cases hname with
      | directory hentry' _ => exact nomatch hentry.symm.trans hentry'
      | link hentry' hrest =>
        obtain rfl := Entry.link.inj (Option.some.inj (hentry.symm.trans hentry'))
        rwa [List.append_nil] at hrest
    · intro hwalk
      exact hbefore.append (.link hentry (by rwa [List.append_nil]))
  rw [hpath]
  unfold follow
  by_cases habsolute : system.isAbsolute target = true
  · rw [if_pos habsolute]
    obtain ⟨name, rest, htarget⟩ := h.absolute target habsolute
    unfold Reading.Denotes
    rw [htarget]
    constructor <;>
    · intro hwalk
      cases hwalk with
      | volume hvolume hrest => exact .volume hvolume hrest
  · rw [if_neg habsolute]
    obtain ⟨parent, hparent, hjoin⟩ :=
      h.relative path target before name hlink (by simpa using habsolute) hsteps
    rw [hparent]
    refine (hjoin place).trans ⟨fun hwalk => ?_, fun hwalk => hbefore.append hwalk⟩
    obtain ⟨pause, hpause, hrest⟩ := hwalk.split rfl
    obtain rfl := hpause.unique hbefore
    exact hrest

/-- The path that the links are followed to denotes what the path that is asked for does. -/
theorem Reading.Answers.denotes_loop (h : reading.Answers system) {asked : Text} (turns : Nat)
    {current : Text}
    (hcurrent : ∀ place, reading.Denotes current place ↔ reading.Denotes asked place)
    (place : Place) :
    reading.Denotes (resolveLoop system asked turns current) place ↔
      reading.Denotes asked place := by
  induction turns generalizing current with
  | zero => exact hcurrent place
  | succ turns ih =>
    unfold resolveLoop
    by_cases hforbidden : isForbiddenPath current = true
    · rw [if_pos hforbidden]
    rw [if_neg hforbidden]
    cases hlink : system.symlink current with
    | none => exact hcurrent place
    | some target =>
      dsimp only
      split_ifs
      · rfl
      · exact ih fun place => (h.denotes_follow hlink place).trans (hcurrent place)

theorem Reading.Answers.denotes_resolve (h : reading.Answers system) (path : Text) (place : Place) :
    reading.Denotes (resolveUserContentPath system path) place ↔ reading.Denotes path place :=
  h.denotes_loop 3 (fun _ => Iff.rfl) place

/-- A selection is accepted as what its links are followed to, unless its text is refused. -/
theorem mem_accept_iff {kind : UserContentKind} {selected path : Text} :
    path ∈ acceptAuthorizedSelection system kind selected ↔
      path = resolveUserContentPath system selected ∧ ¬RefusedByText system kind selected := by
  unfold acceptAuthorizedSelection RefusedByText
  generalize resolveUserContentPath system selected = resolved
  dsimp only
  cases hforbidden : isForbiddenPath resolved with
  | true => simp
  | false =>
    cases hparent : system.parent resolved with
    | none => simp
    | some parent =>
      cases hdir : system.isDir resolved with
      | false => simp
      | true =>
        cases resolveNativePath system kind with
        | none =>
          cases isSafeUserContentTarget system resolved <;> simp [@eq_comm _ path]
        | some expected =>
          cases hsame : sameDir system resolved expected <;>
            cases isSafeUserContentTarget system resolved <;> simp [hsame, @eq_comm _ path]

end

/-! ## Components -/

/-- The pieces of two texts: the last one of the first and the first one of the second are one. -/
theorem splitOn_append_eq (separator : Char) (text rest : Text) :
    ∃ front last first back, text.splitOn separator = front ++ [last] ∧
      rest.splitOn separator = first :: back ∧
      (text ++ rest).splitOn separator = front ++ (last ++ first) :: back := by
  obtain ⟨first, back, hrest⟩ := List.exists_cons_of_ne_nil (List.splitOn_ne_nil separator rest)
  induction text with
  | nil => exact ⟨[], [], first, back, List.splitOn_nil separator, hrest, hrest⟩
  | cons c text ih =>
    obtain ⟨front, last, first', back', htext, hrest', hboth⟩ := ih
    rw [List.cons_append, List.splitOn_cons_eq_if_modifyHead,
      List.splitOn_cons_eq_if_modifyHead c (text ++ rest), htext, hboth]
    by_cases hc : (c == separator) = true
    · rw [if_pos hc, if_pos hc]
      exact ⟨[] :: front, last, first', back', rfl, hrest', rfl⟩
    · rw [if_neg hc, if_neg hc]
      cases front with
      | nil => exact ⟨[], c :: last, first', back', rfl, hrest', rfl⟩
      | cons piece front => exact ⟨(c :: piece) :: front, last, first', back', rfl, hrest', rfl⟩

/-- The first piece is empty where a text is empty or starts with the separator. -/
theorem splitOn_first_eq_nil {separator : Char} {text first : Text} {back : List Text}
    (h : text.splitOn separator = first :: back) :
    first = [] ↔ text = [] ∨ text.head? = some separator := by
  cases text with
  | nil =>
    rw [List.splitOn_nil] at h
    obtain ⟨rfl, -⟩ := List.cons.inj h
    simp
  | cons c text =>
    rw [List.splitOn_cons_eq_if_modifyHead] at h
    by_cases hc : c = separator
    · rw [if_pos (beq_iff_eq.2 hc)] at h
      obtain ⟨rfl, -⟩ := List.cons.inj h
      simp [hc]
    · rw [if_neg (by simpa using hc)] at h
      obtain ⟨piece, pieces, hpieces⟩ :=
        List.exists_cons_of_ne_nil (List.splitOn_ne_nil separator text)
      rw [hpieces] at h
      obtain ⟨rfl, -⟩ := List.cons.inj h
      simp [hc]

/-- The last piece is empty where a text is empty or ends with the separator. -/
theorem splitOn_last_eq_nil {separator : Char} {text last : Text} {front : List Text}
    (h : text.splitOn separator = front ++ [last]) :
    last = [] ↔ text = [] ∨ text.getLast? = some separator := by
  induction text using List.reverseRecOn with
  | nil =>
    rw [List.splitOn_nil] at h
    obtain rfl := (List.append_singleton_inj.1 (show [] ++ [[]] = front ++ [last] from h)).2
    simp
  | append_singleton text c =>
    obtain ⟨front', last', first, back, -, hc, hboth⟩ := splitOn_append_eq separator text [c]
    rw [h] at hboth
    by_cases heq : c = separator
    · rw [heq, List.splitOn_cons_eq_if_modifyHead, if_pos (beq_self_eq_true _),
        List.splitOn_nil] at hc
      obtain ⟨rfl, rfl⟩ := List.cons.inj hc
      rw [show front' ++ (last' ++ []) :: [[]] = (front' ++ [last' ++ []]) ++ [[]] by simp] at hboth
      obtain rfl := (List.append_singleton_inj.1 hboth).2
      simp [heq]
    · rw [List.splitOn_cons_eq_if_modifyHead, if_neg (by simpa using heq), List.splitOn_nil] at hc
      obtain ⟨rfl, rfl⟩ := List.cons.inj hc
      obtain rfl := (List.append_singleton_inj.1 hboth).2
      simp [heq]

/-- The home folder is a part of the components of a path that starts with its text exactly where
this ends a component. -/
theorem homeByComponents_iff {system : System} {path : Text} :
    HomeByComponents system path ↔ HomeEndsComponent system path := by
  have hpieces (home rest : Text) :
      (home.splitOn '/').filter (· ≠ []) <+: ((home ++ rest).splitOn '/').filter (· ≠ []) ↔
        home = [] ∨ home.getLast? = some '/' ∨ rest = [] ∨ rest.head? = some '/' := by
    obtain ⟨front, last, first, back, hhome, hrest, hboth⟩ := splitOn_append_eq '/' home rest
    rw [hhome, hboth, List.filter_append, List.filter_append, List.prefix_append_right_inj,
      ← or_assoc, ← splitOn_last_eq_nil hhome, ← splitOn_first_eq_nil hrest]
    by_cases hlast : last = []
    · simp [hlast]
    · simp [hlast, List.prefix_cons_iff]
  unfold HomeByComponents HomeEndsComponent startsWithHome components
  cases system.homeDir with
  | none => simp
  | some home =>
    simp only [Option.any_some, List.isPrefixOf_iff_prefix, Option.mem_some_iff, exists_eq_left',
      forall_eq']
    constructor
    · intro h rest hrest
      have hprefixed := h ⟨rest, hrest.symm⟩
      rw [hrest] at hprefixed
      exact (hpieces _ _).1 hprefixed
    · rintro h ⟨rest, hrest⟩
      rw [← hrest]
      exact (hpieces _ _).2 (h rest hrest.symm)

/-! ## What is returned -/

/-- The steps of a path of Unix. -/
def unixSteps (path : Text) : List Step :=
  (if path.head? = some '/' then [.volume []] else [])
    ++ ((path.splitOn '/').filter (· ≠ [])).map (fun component =>
      if component = ".".toList then .here
      else if component = "..".toList then .up
      else .name component)
    ++ if path.getLast? = some '/' then [.here] else []

/-- `/home/ada/tools` is a link to `/usr`. -/
def adaFiles : FileSystem where
  volume name := if name = [] then some [] else none
  entry place name :=
    if (place.names, name) ∈ [([], "home".toList), (["home".toList], "ada".toList),
        (["home".toList], "adam".toList), ([], "usr".toList)] then some (.directory name)
    else if (place.names, name) = (["home".toList, "ada".toList], "tools".toList) then
      some (.link "/usr".toList)
    else none

def adaReading : Reading := ⟨adaFiles, unixSteps, ⟨[], []⟩⟩

def adaSystem : System where
  parent path := if path = "/".toList then none else some ((path.rdropWhile (· ≠ '/')).dropLast)
  isAbsolute path := path.head? = some '/'
  join parent target := parent ++ ['/'] ++ target
  symlink path := if path = "/home/ada/tools".toList then some "/usr".toList else none
  isDir path := path ∈ ["/home/ada/tools".toList, "/home/ada/../../usr".toList, "/home/ada".toList]
  pathExists path :=
    path ∈ ["/home/ada/tools".toList, "/home/ada/../../usr".toList, "/home/ada".toList]
  canonicalize path :=
    if path ∈ ["/home/ada/tools".toList, "/home/ada/../../usr".toList] then some "/usr".toList
    else some path
  homeDir := some "/home/ada".toList
  knownDir _ := none

theorem ada_answers : adaReading.Answers adaSystem where
  symlink path target hlink := by
    have hpath : path = "/home/ada/tools".toList ∧ "/usr".toList = target := by
      unfold adaSystem at hlink
      dsimp only at hlink
      split_ifs at hlink with hpath
      exact ⟨hpath, Option.some.inj hlink⟩
    obtain ⟨rfl, rfl⟩ := hpath
    exact ⟨[.volume [], .name "home".toList, .name "ada".toList], "tools".toList,
      ⟨[], ["home".toList, "ada".toList]⟩, by decide,
      .volume rfl (.directory rfl (.directory rfl (.done _))), rfl⟩
  relative path target before name hlink hrelative := by
    have htarget : "/usr".toList = target := by
      unfold adaSystem at hlink
      dsimp only at hlink
      split_ifs at hlink
      exact Option.some.inj hlink
    subst htarget
    exact absurd hrelative (by decide)
  absolute target habsolute := by
    have hhead : target.head? = some '/' := of_decide_eq_true habsolute
    change ∃ name rest, unixSteps target = .volume name :: rest
    unfold unixSteps
    rw [if_pos hhead]
    exact ⟨[], _, rfl⟩

theorem usr_protected : (⟨[], ["usr".toList]⟩ : Place).Protected :=
  .inr ⟨"/usr".toList, by decide, .inl (by decide)⟩

end Zemo.Desktop
