import Mathlib.Data.List.Basic
import Mathlib.Data.List.TakeWhile

/-!
# File systems

A file system is a graph of numbered files, in which the entries of a
directory lead to other files; `.` and `..` are entries like the others. Paths
are looked up segment by segment, and `mkdir` and `stat` fail the way POSIX says
they do. Symbolic links are entries that lead to their target.
-/

namespace FileSystems

inductive FileType where
  | regular
  | directory
  | characterDevice
  | blockDevice
  | fifo
  | socket
  deriving DecidableEq, Repr

/-- The errors of a lookup or a creation; `other` stands for every error that is
neither of the first three, such as missing permissions or a full disk. -/
inductive Errno where
  | noEntry
  | alreadyExists
  | notDirectory
  | other
  deriving DecidableEq, Repr

/-! ### C strings -/

/-- What a system call sees of a string: the characters in front of the first
null character. -/
def cStr (text : List Char) : List Char := text.takeWhile (· ≠ '\x00')

/-- The rest of the string, which begins with that null character. -/
def unseen (text : List Char) : List Char := text.dropWhile (· ≠ '\x00')

theorem cStr_append_unseen (text : List Char) : cStr text ++ unseen text = text :=
  List.takeWhile_append_dropWhile

theorem null_notMem_cStr (text : List Char) : '\x00' ∉ cStr text := by
  intro membership
  simpa using List.mem_takeWhile_imp membership

theorem cStr_eq_self_iff {text : List Char} : cStr text = text ↔ '\x00' ∉ text := by
  refine ⟨fun same => same ▸ null_notMem_cStr text, fun plain => ?_⟩
  refine List.takeWhile_eq_self_iff.mpr fun character membership => ?_
  exact decide_eq_true fun same => plain (same ▸ membership)

@[simp] theorem cStr_cStr (text : List Char) : cStr (cStr text) = cStr text :=
  cStr_eq_self_iff.mpr (null_notMem_cStr text)

theorem unseen_eq_nil {text : List Char} (plain : '\x00' ∉ text) : unseen text = [] :=
  List.dropWhile_eq_nil_iff.mpr fun _ membership =>
    decide_eq_true fun same => plain (same ▸ membership)

theorem cStr_append_of_mem {front : List Char} (present : '\x00' ∈ front) (back : List Char) :
    cStr (front ++ back) = cStr front := by
  unfold cStr
  rw [List.takeWhile_append, if_neg]
  intro whole
  refine cStr_eq_self_iff.mp ?_ present
  exact (List.takeWhile_prefix _).eq_of_length whole

theorem unseen_append_of_notMem {front : List Char} (plain : '\x00' ∉ front) (back : List Char) :
    unseen (front ++ back) = unseen back := by
  have nothing := unseen_eq_nil plain
  unfold unseen at nothing ⊢
  rw [List.dropWhile_append, nothing]
  rfl

/-! ### Paths -/

/-- A path string cut at its slashes. The slash in front of an absolute path
belongs to no segment, and the segments before the last one are listed from the
end to the beginning. -/
structure Path where
  absolute : Bool
  parents : List String
  last : String
  deriving DecidableEq, Repr

namespace Path

def segments (path : Path) : List String := (path.last :: path.parents).reverse

def isEmpty (path : Path) : Bool :=
  !path.absolute && path.parents.isEmpty && path.last == ""

def ofSegments (absolute : Bool) (segments : List (List Char)) : Path :=
  match segments.reverse with
  | [] => ⟨absolute, [], ""⟩
  | last :: parents => ⟨absolute, parents.map String.ofList, String.ofList last⟩

def ofText : List Char → Path
  | '/' :: rest => ofSegments true (rest.splitOn '/')
  | characters => ofSegments false (characters.splitOn '/')

def child (path : Path) (name : String) : Path :=
  ⟨path.absolute, path.last :: path.parents, name⟩

def parentText (characters : List Char) : Option (List Char) :=
  match characters.reverse.dropWhile (· != '/') with
  | [] => none
  | _ :: front => some front.reverse

@[simp] theorem segments_child (path : Path) (name : String) :
    (path.child name).segments = path.segments ++ [name] := List.reverse_cons

@[simp] theorem isEmpty_child (path : Path) (name : String) :
    (path.child name).isEmpty = false := by simp [isEmpty, child]

theorem isEmpty_eq_false {path : Path} {name : String} (membership : name ∈ path.segments)
    (named : name ≠ "") : path.isEmpty = false := by
  rw [Bool.eq_false_iff]
  intro empty
  obtain ⟨⟨-, alone⟩, last⟩ : (path.absolute = false ∧ path.parents = []) ∧ path.last = "" := by
    simpa [isEmpty] using empty
  unfold segments at membership
  rw [alone, last] at membership
  exact named (List.mem_singleton.mp membership)

theorem parentText_eq_some {characters front : List Char}
    (cut : parentText characters = some front) :
    ∃ last, characters = front ++ '/' :: last ∧ '/' ∉ last := by
  unfold parentText at cut
  split at cut
  · cases cut
  · rename_i slash before dropped
    cases cut
    have found : slash = '/' := by
      have head := List.head?_dropWhile_not (· != '/') characters.reverse
      rw [dropped] at head
      simpa using head
    have joined := List.takeWhile_append_dropWhile (p := (· != '/')) (l := characters.reverse)
    rw [dropped, found] at joined
    refine ⟨(characters.reverse.takeWhile (· != '/')).reverse, ?_, ?_⟩
    · have reversed := congrArg List.reverse joined
      simpa using reversed.symm
    · intro membership
      have differs := List.mem_takeWhile_imp (List.mem_reverse.mp membership)
      simp at differs

theorem parentText_eq_none {characters : List Char} (cut : parentText characters = none) :
    '/' ∉ characters := by
  unfold parentText at cut
  split at cut
  · rename_i dropped
    intro membership
    have differs := List.dropWhile_eq_nil_iff.mp dropped '/' (List.mem_reverse.mpr membership)
    simp at differs
  · cases cut

theorem parentText_append (front : List Char) {last : List Char} (plain : '/' ∉ last) :
    parentText (front ++ last) = parentText front := by
  unfold parentText
  have skipped : last.reverse.dropWhile (· != '/') = [] :=
    List.dropWhile_eq_nil_iff.mpr fun _ membership =>
      bne_iff_ne.mpr fun same => plain (same ▸ List.mem_reverse.mp membership)
  rw [List.reverse_append, List.dropWhile_append, skipped]
  rfl

/-- Without a slash behind the null character the parent is that of the C string. -/
theorem parentText_cStr {text : List Char} (plain : '/' ∉ unseen text) :
    parentText text = parentText (cStr text) := by
  rw [← parentText_append (cStr text) plain, cStr_append_unseen]

/-- With one the parent is the same C string again. -/
theorem parentText_of_unseen {text : List Char} (slash : '/' ∈ unseen text) :
    ∃ front, parentText text = some front ∧ cStr front = cStr text := by
  have present : '/' ∈ text := (List.dropWhile_sublist _).mem slash
  cases found : parentText text with
  | none => exact absurd present (parentText_eq_none found)
  | some front =>
      obtain ⟨last, rfl, plain⟩ := parentText_eq_some found
      refine ⟨front, rfl, (cStr_append_of_mem ?_ _).symm⟩
      by_contra absent
      rw [unseen_append_of_notMem absent] at slash
      have inLast : '/' ∈ unseen last := slash
      exact plain ((List.dropWhile_sublist _).mem inLast)

theorem absolute_ofSegments (absolute : Bool) (segments : List (List Char)) :
    (ofSegments absolute segments).absolute = absolute := by
  unfold ofSegments
  split <;> rfl

theorem ofSegments_concat (absolute : Bool) {segments : List (List Char)}
    (nonempty : segments ≠ []) (last : List Char) :
    ofSegments absolute (segments ++ [last]) =
      (ofSegments absolute segments).child (String.ofList last) := by
  obtain rfl | ⟨front, parent, rfl⟩ := segments.eq_nil_or_concat'
  · exact absurd rfl nonempty
  · simp [ofSegments, child]

theorem splitOn_concat (front : List Char) {last : List Char} (plain : '/' ∉ last) :
    (front ++ '/' :: last).splitOn '/' = front.splitOn '/' ++ [last] := by
  rw [← List.splitOn_eq_singleton plain]
  exact List.splitOnP_append_cons front last (by decide)

theorem ofText_concat {front last : List Char} (nonempty : front ≠ []) (plain : '/' ∉ last) :
    ofText (front ++ '/' :: last) = (ofText front).child (String.ofList last) := by
  cases front with
  | nil => exact absurd rfl nonempty
  | cons first rest =>
      by_cases slash : first = '/'
      · subst slash
        change ofSegments true ((rest ++ '/' :: last).splitOn '/') = _
        rw [splitOn_concat rest plain, ofSegments_concat true (List.splitOn_ne_nil _ _)]
        rfl
      · have relative (tail : List Char) :
            ofText (first :: tail) = ofSegments false ((first :: tail).splitOn '/') := by
          unfold ofText
          split
          · rename_i same
            exact absurd (List.cons.inj same).1 slash
          · rfl
        rw [List.cons_append, relative, relative, ← List.cons_append, splitOn_concat _ plain,
          ofSegments_concat false (List.splitOn_ne_nil _ _)]

theorem parents_ofText_eq_nil {last : List Char} (plain : '/' ∉ last) :
    (ofText last).parents = [] ∧ (ofText ('/' :: last)).parents = [] := by
  have single (absolute : Bool) : (ofSegments absolute (last.splitOn '/')).parents = [] := by
    rw [List.splitOn_eq_singleton plain]
    rfl
  refine ⟨?_, single true⟩
  unfold ofText
  split
  · exact absurd (List.mem_cons_self ..) plain
  · exact single false

theorem parentText_of_isEmpty {characters : List Char}
    (empty : (ofText characters).isEmpty = true) : parentText characters = none := by
  obtain ⟨⟨relative, alone⟩, -⟩ : ((ofText characters).absolute = false ∧
      (ofText characters).parents = []) ∧ (ofText characters).last = "" := by
    simpa [isEmpty] using empty
  cases cut : parentText characters with
  | none => rfl
  | some front =>
      obtain ⟨last, rfl, plain⟩ := parentText_eq_some cut
      cases front with
      | nil =>
          rw [List.nil_append, ofText, absolute_ofSegments] at relative
          cases relative
      | cons first rest =>
          rw [ofText_concat (List.cons_ne_nil first rest) plain] at alone
          cases alone

end Path

/-! ### The graph of files -/

/-- The files, the entries of the directories, and the two directories where
lookups begin. `refuses` says where a new name cannot be created although it is
not there yet. -/
structure FileSystem where
  size : Nat
  kind : Fin size → FileType
  entry : Fin size → String → Option (Fin size)
  refuses : Nat → String → Bool
  root : Fin size
  cwd : Fin size
  root_directory : kind root = .directory
  cwd_directory : kind cwd = .directory

namespace FileSystem

variable (fs : FileSystem)

def start (absolute : Bool) : Fin fs.size := if absolute then fs.root else fs.cwd

/-- Look up one segment; an empty one, between two slashes, stays where it is. -/
def step (inode : Fin fs.size) (name : String) : Except Errno (Fin fs.size) :=
  if name = "" then .ok inode
  else if fs.kind inode ≠ .directory then .error .notDirectory
  else
    match fs.entry inode name with
    | none => .error .noEntry
    | some child => .ok child

def walk (inode : Fin fs.size) (names : List String) : Except Errno (Fin fs.size) :=
  names.foldlM fs.step inode

/-- The file system with a new directory, which has the entries `.` and `..`. -/
def create (parent : Fin fs.size) (name : String) : FileSystem where
  size := fs.size + 1
  kind := Fin.lastCases .directory fs.kind
  entry inode wanted :=
    Fin.lastCases
      (if wanted = "." then some (Fin.last fs.size)
        else if wanted = ".." then some parent.castSucc
        else none)
      (fun old => if old = parent ∧ wanted = name then some (Fin.last fs.size)
        else (fs.entry old wanted).map Fin.castSucc)
      inode
  refuses := fs.refuses
  root := fs.root.castSucc
  cwd := fs.cwd.castSucc
  root_directory := by rw [Fin.lastCases_castSucc, fs.root_directory]
  cwd_directory := by rw [Fin.lastCases_castSucc, fs.cwd_directory]

def makeEntry (parent : Fin fs.size) (name : String) : Except Errno FileSystem :=
  if fs.kind parent ≠ .directory then .error .notDirectory
  else
    match fs.entry parent name with
    | some _ => .error .alreadyExists
    | none => if fs.refuses parent name then .error .other else .ok (fs.create parent name)

/-- `mkdir`: the last segment that is not empty is the new name, so slashes at
the end are ignored. A path of slashes alone is the root, which exists. -/
def mkdir (path : Path) : Except Errno FileSystem :=
  if path.isEmpty then .error .noEntry
  else
    match (path.last :: path.parents).dropWhile (· == "") with
    | [] => .error .alreadyExists
    | name :: above => do
        let parent ← fs.walk (fs.start path.absolute) above.reverse
        fs.makeEntry parent name

/-- `stat`: the type of the file; a path with a slash at the end names a
directory or nothing. -/
def stat (path : Path) : Option FileType :=
  if path.isEmpty then none
  else
    match fs.walk (fs.start path.absolute) path.segments with
    | .error _ => none
    | .ok inode =>
        if path.last = "" ∧ fs.kind inode ≠ .directory then none else some (fs.kind inode)

def IsDirectory (path : Path) : Prop := fs.stat path = some .directory

instance (path : Path) : Decidable (fs.IsDirectory path) :=
  inferInstanceAs (Decidable (fs.stat path = some .directory))

/-- The directory that lacks the next segment, this segment and those after it. -/
def firstMissing : Fin fs.size → List String → Option (Fin fs.size × String × List String)
  | _, [] => none
  | inode, name :: rest =>
      match fs.step inode name with
      | .ok child => firstMissing child rest
      | .error .noEntry => some (inode, name, rest)
      | .error _ => none

variable {fs}

/-! ### Looking up -/

@[simp] theorem step_empty (inode : Fin fs.size) : fs.step inode "" = .ok inode := if_pos rfl

theorem step_noEntry_iff {inode : Fin fs.size} {name : String} :
    fs.step inode name = .error .noEntry ↔
      name ≠ "" ∧ fs.kind inode = .directory ∧ fs.entry inode name = none := by
  unfold step
  split_ifs with empty typed
  · simp [empty]
  · simp [typed]
  · cases fs.entry inode name <;> simp_all

theorem step_ok_iff {inode child : Fin fs.size} {name : String} (named : name ≠ "") :
    fs.step inode name = .ok child ↔
      fs.kind inode = .directory ∧ fs.entry inode name = some child := by
  unfold step
  rw [if_neg named]
  split_ifs with typed
  · simp [typed]
  · cases fs.entry inode name <;> simp_all

theorem step_error {inode : Fin fs.size} {name : String} {error : Errno}
    (failed : fs.step inode name = .error error) :
    error = .noEntry ∨ name ≠ "" ∧ fs.kind inode ≠ .directory ∧ error = .notDirectory := by
  unfold step at failed
  split_ifs at failed with empty typed
  · cases failed
    exact .inr ⟨empty, typed, rfl⟩
  · cases present : fs.entry inode name with
    | none =>
        rw [present] at failed
        cases failed
        exact .inl rfl
    | some child =>
        rw [present] at failed
        cases failed

theorem walk_cons (inode : Fin fs.size) (name : String) (rest : List String) :
    fs.walk inode (name :: rest) = fs.step inode name >>= fun child => fs.walk child rest :=
  List.foldlM_cons

theorem walk_append (inode : Fin fs.size) (front back : List String) :
    fs.walk inode (front ++ back) = fs.walk inode front >>= fun middle => fs.walk middle back :=
  List.foldlM_append

theorem walk_append_of_ok {inode middle : Fin fs.size} {front : List String}
    (walked : fs.walk inode front = .ok middle) (back : List String) :
    fs.walk inode (front ++ back) = fs.walk middle back := by
  rw [walk_append, walked]
  rfl

theorem walk_append_of_error {inode : Fin fs.size} {front : List String} {error : Errno}
    (failed : fs.walk inode front = .error error) (back : List String) :
    fs.walk inode (front ++ back) = .error error := by
  rw [walk_append, failed]
  rfl

theorem walk_of_missing {inode parent : Fin fs.size} {known rest : List String} {name : String}
    (walked : fs.walk inode known = .ok parent)
    (absent : fs.step parent name = .error .noEntry) :
    fs.walk inode (known ++ name :: rest) = .error .noEntry := by
  rw [walk_append_of_ok walked, walk_cons, absent]
  rfl

theorem walk_of_not_directory {inode parent : Fin fs.size} {known rest : List String}
    {name : String} (walked : fs.walk inode known = .ok parent) (named : name ≠ "")
    (typed : fs.kind parent ≠ .directory) :
    fs.walk inode (known ++ name :: rest) = .error .notDirectory := by
  rw [walk_append_of_ok walked, walk_cons, step, if_neg named, if_pos typed]
  rfl

theorem walk_empties (inode : Fin fs.size) {names : List String}
    (empties : ∀ name ∈ names, name = "") : fs.walk inode names = .ok inode := by
  induction names with
  | nil => rfl
  | cons name rest inductionHypothesis =>
      rw [walk_cons, empties name (List.mem_cons_self ..), step_empty]
      exact inductionHypothesis fun other membership =>
        empties other (List.mem_cons_of_mem _ membership)

theorem firstMissing_eq_some {inode parent : Fin fs.size} {names rest : List String}
    {name : String} (missing : fs.firstMissing inode names = some (parent, name, rest)) :
    ∃ known, names = known ++ name :: rest ∧ fs.walk inode known = .ok parent ∧
      fs.step parent name = .error .noEntry := by
  induction names generalizing inode with
  | nil => cases missing
  | cons first others inductionHypothesis =>
      unfold firstMissing at missing
      split at missing
      · rename_i child stepped
        obtain ⟨known, rfl, walked, absent⟩ := inductionHypothesis missing
        refine ⟨first :: known, rfl, ?_, absent⟩
        rw [walk_cons, stepped]
        exact walked
      · rename_i stepped
        cases missing
        exact ⟨[], rfl, rfl, stepped⟩
      · cases missing

theorem firstMissing_append {inode parent : Fin fs.size} {known rest : List String}
    {name : String} (walked : fs.walk inode known = .ok parent)
    (absent : fs.step parent name = .error .noEntry) :
    fs.firstMissing inode (known ++ name :: rest) = some (parent, name, rest) := by
  induction known generalizing inode with
  | nil =>
      cases walked
      rw [List.nil_append, firstMissing, absent]
  | cons first others inductionHypothesis =>
      rw [walk_cons] at walked
      cases stepped : fs.step inode first with
      | error error =>
          rw [stepped] at walked
          cases walked
      | ok child =>
          rw [stepped] at walked
          rw [List.cons_append, firstMissing, stepped]
          exact inductionHypothesis walked

theorem walk_of_firstMissing_eq_none {inode : Fin fs.size} {names : List String}
    (complete : fs.firstMissing inode names = none) :
    (∃ reached, fs.walk inode names = .ok reached) ∨
      ∃ known name rest parent, names = known ++ name :: rest ∧ name ≠ "" ∧
        fs.walk inode known = .ok parent ∧ fs.kind parent ≠ .directory := by
  induction names generalizing inode with
  | nil => exact .inl ⟨inode, rfl⟩
  | cons first others inductionHypothesis =>
      unfold firstMissing at complete
      cases stepped : fs.step inode first with
      | ok child =>
          rw [stepped] at complete
          obtain ⟨reached, walked⟩ | ⟨known, name, rest, parent, rfl, named, walked, typed⟩ :=
            inductionHypothesis complete
          · refine .inl ⟨reached, ?_⟩
            rw [walk_cons, stepped]
            exact walked
          · refine .inr ⟨first :: known, name, rest, parent, rfl, named, ?_, typed⟩
            rw [walk_cons, stepped]
            exact walked
      | error error =>
          obtain rfl | ⟨named, typed, rfl⟩ := step_error stepped
          · rw [stepped] at complete
            cases complete
          · exact .inr ⟨[], first, others, inode, rfl, named, rfl, typed⟩

/-! ### Creating and inspecting -/

theorem mkdir_eq {path : Path} {front tail : List String} {name : String}
    (split : path.segments = front ++ name :: tail) (named : name ≠ "")
    (empties : ∀ segment ∈ tail, segment = "") :
    fs.mkdir path =
      fs.walk (fs.start path.absolute) front >>= fun parent => fs.makeEntry parent name := by
  have reversed : path.last :: path.parents = tail.reverse ++ name :: front.reverse := by
    rw [← List.reverse_reverse (path.last :: path.parents)]
    change path.segments.reverse = _
    simp [split]
  have dropped : (path.last :: path.parents).dropWhile (· == "") = name :: front.reverse := by
    rw [reversed, List.dropWhile_append_of_pos fun segment membership => by
        simp [empties segment (List.mem_reverse.mp membership)],
      List.dropWhile_cons_of_neg (by simpa using named)]
  have nonempty : path.isEmpty = false := Path.isEmpty_eq_false (by simp [split]) named
  unfold mkdir
  rw [nonempty, dropped]
  simp only [List.reverse_reverse]
  rfl

theorem last_named (names : List String) :
    (∀ name ∈ names, name = "") ∨
      ∃ front name tail, names = front ++ name :: tail ∧ name ≠ "" ∧
        ∀ segment ∈ tail, segment = "" := by
  induction names with
  | nil => exact .inl (fun _ membership => nomatch membership)
  | cons first rest inductionHypothesis =>
      obtain empties | ⟨front, name, tail, rfl, named, empties⟩ := inductionHypothesis
      · by_cases named : first = ""
        · exact .inl (List.forall_mem_cons.mpr ⟨named, empties⟩)
        · exact .inr ⟨[], first, rest, rfl, named, empties⟩
      · exact .inr ⟨first :: front, name, tail, rfl, named, empties⟩

theorem makeEntry_of_absent {parent : Fin fs.size} {name : String}
    (absent : fs.step parent name = .error .noEntry) :
    fs.makeEntry parent name =
      if fs.refuses parent name then .error .other else .ok (fs.create parent name) := by
  obtain ⟨named, typed, missing⟩ := step_noEntry_iff.mp absent
  unfold makeEntry
  rw [if_neg (not_not_intro typed), missing]

theorem mkdir_of_walk {path : Path} {inode : Fin fs.size} (nonempty : path.isEmpty = false)
    (walked : fs.walk (fs.start path.absolute) path.segments = .ok inode) :
    fs.mkdir path = .error .alreadyExists := by
  obtain empties | ⟨front, name, tail, split, named, empties⟩ := last_named path.segments
  · have dropped : (path.last :: path.parents).dropWhile (· == "") = [] := by
      refine List.dropWhile_eq_nil_iff.mpr fun segment membership => ?_
      simpa using empties segment (List.mem_reverse.mpr membership)
    unfold mkdir
    rw [nonempty, dropped]
    rfl
  · rw [mkdir_eq split named empties]
    rw [split, walk_append] at walked
    cases reached : fs.walk (fs.start path.absolute) front with
    | error error =>
        rw [reached] at walked
        cases walked
    | ok parent =>
        rw [reached] at walked
        change fs.walk parent (name :: tail) = _ at walked
        rw [walk_cons] at walked
        cases stepped : fs.step parent name with
        | error error =>
            rw [stepped] at walked
            cases walked
        | ok child =>
            obtain ⟨typed, present⟩ := (step_ok_iff named).mp stepped
            change fs.makeEntry parent name = _
            unfold makeEntry
            rw [if_neg (not_not_intro typed), present]

theorem mkdir_of_not_directory {path : Path} {known rest : List String} {name : String}
    {parent : Fin fs.size} (split : path.segments = known ++ name :: rest) (named : name ≠ "")
    (walked : fs.walk (fs.start path.absolute) known = .ok parent)
    (typed : fs.kind parent ≠ .directory) : fs.mkdir path = .error .notDirectory := by
  obtain empties | ⟨front, last, tail, rfl, lastNamed, empties⟩ := last_named rest
  · rw [mkdir_eq split named empties, walked]
    exact if_pos typed
  · have regrouped : path.segments = (known ++ name :: front) ++ last :: tail := by
      simpa using split
    rw [mkdir_eq regrouped lastNamed empties, walk_of_not_directory walked named typed]
    rfl

theorem mkdir_of_missing {path : Path} {known rest : List String} {name : String}
    {parent : Fin fs.size} (split : path.segments = known ++ name :: rest)
    (walked : fs.walk (fs.start path.absolute) known = .ok parent)
    (absent : fs.step parent name = .error .noEntry)
    (further : ¬ ∀ segment ∈ rest, segment = "") : fs.mkdir path = .error .noEntry := by
  obtain empties | ⟨front, last, tail, rfl, lastNamed, empties⟩ := last_named rest
  · exact absurd empties further
  · have regrouped : path.segments = (known ++ name :: front) ++ last :: tail := by
      simpa using split
    rw [mkdir_eq regrouped lastNamed empties, walk_of_missing walked absent]
    rfl

theorem mkdir_of_last_missing {path : Path} {known rest : List String} {name : String}
    {parent : Fin fs.size} (split : path.segments = known ++ name :: rest)
    (walked : fs.walk (fs.start path.absolute) known = .ok parent)
    (absent : fs.step parent name = .error .noEntry) (empties : ∀ segment ∈ rest, segment = "") :
    fs.mkdir path =
      if fs.refuses parent name then .error .other else .ok (fs.create parent name) := by
  obtain ⟨named, -, -⟩ := step_noEntry_iff.mp absent
  rw [mkdir_eq split named empties, walked]
  exact makeEntry_of_absent absent

theorem stat_of_error {path : Path} {error : Errno}
    (failed : fs.walk (fs.start path.absolute) path.segments = .error error) :
    fs.stat path = none := by
  unfold stat
  rw [failed]
  split <;> rfl

theorem isDirectory_iff {path : Path} (nonempty : path.isEmpty = false) :
    fs.IsDirectory path ↔
      ∃ inode, fs.walk (fs.start path.absolute) path.segments = .ok inode ∧
        fs.kind inode = .directory := by
  unfold IsDirectory stat
  rw [nonempty]
  cases fs.walk (fs.start path.absolute) path.segments with
  | error error => simp
  | ok inode =>
      by_cases typed : fs.kind inode = .directory <;> simp [typed]

/-! ### The file system with the new directory -/

section Create

variable {parent : Fin fs.size} {name : String}

def old (parent : Fin fs.size) (name : String) (inode : Fin fs.size) :
    Fin (fs.create parent name).size := Fin.castSucc inode

def new (parent : Fin fs.size) (name : String) : Fin (fs.create parent name).size :=
  Fin.last fs.size

@[simp] theorem start_create (absolute : Bool) :
    (fs.create parent name).start absolute = old parent name (fs.start absolute) := by
  cases absolute <;> rfl

theorem kind_old (inode : Fin fs.size) :
    (fs.create parent name).kind (old parent name inode) = fs.kind inode :=
  Fin.lastCases_castSucc (motive := fun _ => FileType) inode

theorem kind_new : (fs.create parent name).kind (new parent name) = .directory :=
  Fin.lastCases_last (motive := fun _ => FileType)

theorem entry_old (inode : Fin fs.size) (wanted : String) :
    (fs.create parent name).entry (old parent name inode) wanted =
      if inode = parent ∧ wanted = name then some (new parent name)
      else (fs.entry inode wanted).map (old parent name) :=
  Fin.lastCases_castSucc (motive := fun _ => Option (Fin (fs.size + 1))) inode

theorem entry_new (wanted : String) :
    (fs.create parent name).entry (new parent name) wanted =
      if wanted = "." then some (new parent name)
      else if wanted = ".." then some (old parent name parent)
      else none :=
  Fin.lastCases_last (motive := fun _ => Option (Fin (fs.size + 1)))

theorem step_old (absent : fs.step parent name = .error .noEntry)
    {inode child : Fin fs.size} {wanted : String} (stepped : fs.step inode wanted = .ok child) :
    (fs.create parent name).step (old parent name inode) wanted =
      .ok (old parent name child) := by
  by_cases empty : wanted = ""
  · subst empty
    rw [step_empty] at stepped ⊢
    cases stepped
    rfl
  · obtain ⟨typed, present⟩ := (step_ok_iff empty).mp stepped
    have different : ¬ (inode = parent ∧ wanted = name) := by
      rintro ⟨rfl, rfl⟩
      rw [stepped] at absent
      cases absent
    refine (step_ok_iff empty).mpr ⟨(kind_old inode).trans typed, ?_⟩
    rw [entry_old, if_neg different, present]
    rfl

theorem walk_old (absent : fs.step parent name = .error .noEntry)
    {inode reached : Fin fs.size} {names : List String}
    (walked : fs.walk inode names = .ok reached) :
    (fs.create parent name).walk (old parent name inode) names =
      .ok (old parent name reached) := by
  induction names generalizing inode with
  | nil =>
      cases walked
      rfl
  | cons first rest inductionHypothesis =>
      rw [walk_cons] at walked ⊢
      cases stepped : fs.step inode first with
      | error error =>
          rw [stepped] at walked
          cases walked
      | ok child =>
          rw [stepped] at walked
          rw [step_old absent stepped]
          exact inductionHypothesis walked

theorem step_new (absent : fs.step parent name = .error .noEntry) :
    (fs.create parent name).step (old parent name parent) name = .ok (new parent name) := by
  obtain ⟨named, typed, missing⟩ := step_noEntry_iff.mp absent
  refine (step_ok_iff named).mpr ⟨(kind_old parent).trans typed, ?_⟩
  rw [entry_old, if_pos ⟨rfl, rfl⟩]

theorem walk_new {absolute : Bool} {known : List String}
    (walked : fs.walk (fs.start absolute) known = .ok parent)
    (absent : fs.step parent name = .error .noEntry) :
    (fs.create parent name).walk ((fs.create parent name).start absolute) (known ++ [name]) =
      .ok (new parent name) := by
  rw [start_create, walk_append_of_ok (walk_old absent walked), walk_cons, step_new absent]
  rfl

end Create

/-- A segment that leads somewhere from every directory. -/
def standing (name : String) : Bool := name == "" || name == "." || name == ".."

structure Fresh (fs : FileSystem) (inode : Fin fs.size) : Prop where
  directory : fs.kind inode = .directory
  leads : ∀ name, standing name = true → ∃ child, fs.step inode name = .ok child
  lacks : ∀ name, standing name = false → fs.step inode name = .error .noEntry

theorem fresh_new (parent : Fin fs.size) (name : String) :
    (fs.create parent name).Fresh (new parent name) where
  directory := kind_new
  leads wanted stands := by
    obtain (rfl | rfl) | rfl : (wanted = "" ∨ wanted = ".") ∨ wanted = ".." := by
      simpa [standing] using stands
    · exact ⟨_, step_empty _⟩
    · exact ⟨_, (step_ok_iff (by decide)).mpr ⟨kind_new, (entry_new _).trans rfl⟩⟩
    · exact ⟨_, (step_ok_iff (by decide)).mpr ⟨kind_new, (entry_new _).trans rfl⟩⟩
  lacks wanted stands := by
    obtain ⟨⟨named, notSelf⟩, notParent⟩ :
        (wanted ≠ "" ∧ wanted ≠ ".") ∧ wanted ≠ ".." := by simpa [standing] using stands
    refine step_noEntry_iff.mpr ⟨named, kind_new, ?_⟩
    rw [entry_new, if_neg notSelf, if_neg notParent]

end FileSystem
end FileSystems
