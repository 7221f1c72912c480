import Ns3Quic.Lib.FileSystem

/-!
# New directories seen from before

When directories are created one below the other, where a path leads afterwards
can be read off the file system as it is before: a lookup stands at a file that
is there already or at one of the new directories, which are known by their
position in the chain. `follow` looks a path up in this way, and `Mirrors` says
that it finds what the lookup in the larger file system finds.
-/

namespace FileSystems

/-- A file that is there already, or the new directory at this position. -/
inductive Place (fs : FileSystem) where
  | file (inode : Fin fs.size)
  | added (index : Nat)

namespace FileSystem

variable (fs : FileSystem) (parent : Fin fs.size) (chain : List String)

/-- Where so many directories end of which the first is created in `parent`. -/
def chainEnd : Nat → Place fs
  | 0 => .file parent
  | index + 1 => .added index

def number : Place fs → Nat
  | .file inode => inode
  | .added index => fs.size + index

/-- Look up one segment, with the directories of the chain in place. -/
def descend : Place fs → String → Except Errno (Place fs)
  | .file inode, wanted =>
      if wanted = "" then .ok (.file inode)
      else if fs.kind inode ≠ .directory then .error .notDirectory
      else if inode = parent ∧ chain[0]? = some wanted then .ok (.added 0)
      else
        match fs.entry inode wanted with
        | none => .error .noEntry
        | some child => .ok (.file child)
  | .added index, wanted =>
      if wanted = "" ∨ wanted = "." then .ok (.added index)
      else if wanted = ".." then .ok (fs.chainEnd parent index)
      else if chain[index + 1]? = some wanted then .ok (.added (index + 1))
      else .error .noEntry

def follow (place : Place fs) (names : List String) : Except Errno (Place fs) :=
  names.foldlM (fs.descend parent chain) place

def kindAt : Place fs → FileType
  | .file inode => fs.kind inode
  | .added _ => .directory

/-- No name of the chain is refused where it is created. -/
def Permits : Prop :=
  ∀ index name, chain[index]? = some name →
    fs.refuses (fs.number (fs.chainEnd parent index)) name = false

def Present : Place fs → Prop
  | .file _ => True
  | .added index => index < chain.length

/-- Lookups in the larger file system agree with those along the chain. -/
structure Mirrors (larger : FileSystem) (locate : Place fs → Fin larger.size) : Prop where
  size : larger.size = fs.size + chain.length
  refuses : larger.refuses = fs.refuses
  number : ∀ place, fs.Present chain place → (locate place : Nat) = fs.number place
  start : ∀ absolute, larger.start absolute = locate (.file (fs.start absolute))
  kind : ∀ place, fs.Present chain place → larger.kind (locate place) = fs.kindAt place
  step : ∀ place, fs.Present chain place → ∀ wanted,
    larger.step (locate place) wanted = (fs.descend parent chain place wanted).map locate

variable {fs parent chain}

theorem descend_file (inode : Fin fs.size) (wanted : String) :
    fs.descend parent chain (.file inode) wanted =
      if wanted = "" then .ok (.file inode)
      else if fs.kind inode ≠ .directory then .error .notDirectory
      else if inode = parent ∧ chain[0]? = some wanted then .ok (.added 0)
      else
        match fs.entry inode wanted with
        | none => .error .noEntry
        | some child => .ok (.file child) := rfl

theorem descend_added (index : Nat) (wanted : String) :
    fs.descend parent chain (.added index) wanted =
      if wanted = "" ∨ wanted = "." then .ok (.added index)
      else if wanted = ".." then .ok (fs.chainEnd parent index)
      else if chain[index + 1]? = some wanted then .ok (.added (index + 1))
      else .error .noEntry := rfl

theorem present_chainEnd {index : Nat} (within : index ≤ chain.length) :
    fs.Present chain (fs.chainEnd parent index) := by
  cases index with
  | zero => trivial
  | succ index => exact within

theorem present_descend {place next : Place fs} {wanted : String}
    (present : fs.Present chain place) (stepped : fs.descend parent chain place wanted = .ok next) :
    fs.Present chain next := by
  cases place with
  | file inode =>
      rw [descend_file] at stepped
      split_ifs at stepped with empty typed first
      · cases stepped
        trivial
      · cases stepped
        obtain ⟨within, -⟩ := List.getElem?_eq_some_iff.mp first.2
        exact within
      · split at stepped
        · cases stepped
        · cases stepped
          trivial
  | added index =>
      rw [descend_added] at stepped
      split_ifs at stepped with stays up below
      · cases stepped
        exact present
      · cases stepped
        exact present_chainEnd (le_of_lt present)
      · cases stepped
        obtain ⟨within, -⟩ := List.getElem?_eq_some_iff.mp below
        exact within

@[simp] theorem descend_empty (place : Place fs) :
    fs.descend parent chain place "" = .ok place := by
  cases place <;> rfl

theorem follow_cons (place : Place fs) (name : String) (rest : List String) :
    fs.follow parent chain place (name :: rest) =
      fs.descend parent chain place name >>= fun next => fs.follow parent chain next rest :=
  List.foldlM_cons

theorem follow_append_of_ok {place middle : Place fs} {front : List String}
    (followed : fs.follow parent chain place front = .ok middle) (back : List String) :
    fs.follow parent chain place (front ++ back) = fs.follow parent chain middle back := by
  unfold follow at followed ⊢
  rw [List.foldlM_append, followed]
  rfl

theorem follow_empties (place : Place fs) {names : List String}
    (empties : ∀ name ∈ names, name = "") : fs.follow parent chain place names = .ok place := by
  induction names with
  | nil => rfl
  | cons name rest inductionHypothesis =>
      rw [follow_cons, empties name (List.mem_cons_self ..), descend_empty]
      exact inductionHypothesis fun other membership =>
        empties other (List.mem_cons_of_mem _ membership)

theorem follow_of_walk (absent : ∀ name, chain[0]? = some name →
      fs.step parent name = .error .noEntry)
    {inode reached : Fin fs.size} {names : List String}
    (walked : fs.walk inode names = .ok reached) :
    fs.follow parent chain (.file inode) names = .ok (.file reached) := by
  induction names generalizing inode with
  | nil =>
      cases walked
      rfl
  | cons wanted rest inductionHypothesis =>
      rw [walk_cons] at walked
      cases stepped : fs.step inode wanted with
      | error error =>
          rw [stepped] at walked
          cases walked
      | ok child =>
          rw [stepped] at walked
          have same : fs.descend parent chain (.file inode) wanted = .ok (.file child) := by
            by_cases empty : wanted = ""
            · subst empty
              rw [step_empty] at stepped
              cases stepped
              exact descend_empty _
            · obtain ⟨typed, found⟩ := (step_ok_iff empty).mp stepped
              have other : ¬ (inode = parent ∧ chain[0]? = some wanted) := by
                rintro ⟨rfl, first⟩
                cases (absent wanted first).symm.trans stepped
              rw [descend_file, if_neg empty, if_neg (not_not_intro typed), if_neg other, found]
          rw [follow_cons, same]
          exact inductionHypothesis walked

/-- The next name of the chain leads to the next directory. A new directory has
the entries `.` and `..`, so that only the first name can be one of them. -/
theorem descend_chainEnd (typed : fs.kind parent = .directory) {index : Nat} {name : String}
    (next : chain[index]? = some name) (named : name ≠ "")
    (plain : index ≠ 0 → standing name = false) :
    fs.descend parent chain (fs.chainEnd parent index) name =
      .ok (fs.chainEnd parent (index + 1)) := by
  cases index with
  | zero =>
      rw [chainEnd, descend_file, if_neg named, if_neg (not_not_intro typed),
        if_pos ⟨rfl, next⟩]
      rfl
  | succ index =>
      obtain ⟨⟨-, notSelf⟩, notParent⟩ : (name ≠ "" ∧ name ≠ ".") ∧ name ≠ ".." := by
        simpa [standing] using plain (Nat.succ_ne_zero index)
      rw [chainEnd, descend_added, if_neg (not_or.mpr ⟨named, notSelf⟩), if_neg notParent,
        if_pos next]
      rfl

theorem follow_chain (typed : fs.kind parent = .directory) {front back : List String}
    (split : chain = front ++ back) (plain : ∀ name ∈ back, standing name = false) :
    fs.follow parent chain (fs.chainEnd parent front.length) back =
      .ok (fs.chainEnd parent chain.length) := by
  induction back generalizing front with
  | nil =>
      rw [split, List.append_nil]
      rfl
  | cons name rest inductionHypothesis =>
      have next : chain[front.length]? = some name := by simp [split]
      have plainName := plain name (List.mem_cons_self ..)
      have named : name ≠ "" := by
        rintro rfl
        cases plainName
      rw [follow_cons, descend_chainEnd typed next named fun _ => plainName]
      have further := @inductionHypothesis (front ++ [name]) (by simp [split])
        fun other membership => plain other (List.mem_cons_of_mem _ membership)
      rwa [List.length_append, List.length_singleton] at further

/-! ### One more directory -/

theorem permits_concat_iff {name : String} :
    fs.Permits parent (chain ++ [name]) ↔
      fs.Permits parent chain ∧
        fs.refuses (fs.number (fs.chainEnd parent chain.length)) name = false := by
  constructor
  · intro permits
    refine ⟨fun index wanted found => permits index wanted ?_, permits _ name (by simp)⟩
    obtain ⟨within, -⟩ := List.getElem?_eq_some_iff.mp found
    rw [List.getElem?_append_left within, found]
  · rintro ⟨permits, last⟩ index wanted found
    obtain inside | outside := Nat.lt_or_ge index chain.length
    · rw [List.getElem?_append_left inside] at found
      exact permits index wanted found
    · rw [List.getElem?_append_right outside, List.getElem?_singleton] at found
      split_ifs at found with first
      cases found
      rwa [show index = chain.length by omega]

theorem descend_concat {place : Place fs} {name wanted : String}
    (present : fs.Present chain place)
    (other : ¬ (place = fs.chainEnd parent chain.length ∧ wanted = name)) :
    fs.descend parent (chain ++ [name]) place wanted = fs.descend parent chain place wanted := by
  -- the longer chain differs at the position after the shorter one alone
  have same (index : Nat) (within : index ≤ chain.length)
      (differs : ¬ (index = chain.length ∧ wanted = name)) :
      (chain ++ [name])[index]? = some wanted ↔ chain[index]? = some wanted := by
    obtain inside | rfl := Nat.lt_or_eq_of_le within
    · rw [List.getElem?_append_left inside]
    · simpa [eq_comm] using differs
  cases place with
  | file inode =>
      rw [descend_file, descend_file]
      by_cases here : inode = parent
      · subst here
        have differs : ¬ (0 = chain.length ∧ wanted = name) := by
          rintro ⟨empty, rfl⟩
          rw [← empty] at other
          exact other ⟨rfl, rfl⟩
        simp only [same 0 (Nat.zero_le _) differs]
      · simp [here]
  | added index =>
      have differs : ¬ (index + 1 = chain.length ∧ wanted = name) := by
        rintro ⟨atEnd, rfl⟩
        rw [← atEnd] at other
        exact other ⟨rfl, rfl⟩
      rw [descend_added, descend_added]
      simp only [same (index + 1) present differs]

theorem step_old_of_ne {created : Fin fs.size} {name : String} {inode : Fin fs.size}
    {wanted : String} (other : ¬ (inode = created ∧ wanted = name)) :
    (fs.create created name).step (old created name inode) wanted =
      (fs.step inode wanted).map (old created name) := by
  unfold step
  rw [kind_old, entry_old, if_neg other]
  split_ifs
  · rfl
  · rfl
  · cases fs.entry inode wanted <;> rfl

def extend {larger : FileSystem} (length : Nat) (locate : Place fs → Fin larger.size)
    (created : Fin larger.size) (name : String) : Place fs → Fin (larger.create created name).size
  | .file inode => old created name (locate (.file inode))
  | .added index =>
      if index = length then new created name else old created name (locate (.added index))

theorem extend_of_present {larger : FileSystem} {locate : Place fs → Fin larger.size}
    {created : Fin larger.size} {name : String} {place : Place fs}
    (present : fs.Present chain place) :
    extend chain.length locate created name place = old created name (locate place) := by
  cases place with
  | file inode => rfl
  | added index => exact if_neg (Nat.ne_of_lt present)

theorem present_concat {name : String} {place : Place fs}
    (present : fs.Present (chain ++ [name]) place) :
    fs.Present chain place ∨ place = .added chain.length := by
  cases place with
  | file inode => exact .inl trivial
  | added index =>
      have within : index < chain.length + 1 := by simpa [Present] using present
      obtain inside | rfl := Nat.lt_or_eq_of_le (Nat.le_of_lt_succ within)
      · exact .inl inside
      · exact .inr rfl

theorem mirrors_nil (fs : FileSystem) (parent : Fin fs.size) :
    fs.Mirrors parent [] fs fun
      | .file inode => inode
      | .added _ => parent where
  size := rfl
  refuses := rfl
  number place present := by
    cases place with
    | file inode => rfl
    | added index => exact absurd present (Nat.not_lt_zero index)
  start _ := rfl
  kind place present := by
    cases place with
    | file inode => rfl
    | added index => exact absurd present (Nat.not_lt_zero index)
  step place present wanted := by
    cases place with
    | file inode =>
        rw [descend_file]
        unfold step
        split_ifs with empty typed first
        · rfl
        · rfl
        · simp at first
        · cases fs.entry inode wanted <;> rfl
    | added index => exact absurd present (Nat.not_lt_zero index)

section Extend

variable {larger : FileSystem} {locate : Place fs → Fin larger.size} {name : String}

theorem Mirrors.locate_injective (mirrors : fs.Mirrors parent chain larger locate)
    {first second : Place fs} (presentFirst : fs.Present chain first)
    (presentSecond : fs.Present chain second) (same : locate first = locate second) :
    first = second := by
  have numbers := congrArg Fin.val same
  rw [mirrors.number _ presentFirst, mirrors.number _ presentSecond] at numbers
  cases first with
  | file inode =>
      cases second with
      | file other => exact congrArg Place.file (Fin.ext numbers)
      | added index =>
          have small := inode.isLt
          simp only [FileSystem.number] at numbers
          omega
  | added index =>
      cases second with
      | file other =>
          have small := other.isLt
          simp only [FileSystem.number] at numbers
          omega
      | added other => exact congrArg Place.added (Nat.add_left_cancel numbers)

theorem Mirrors.step_present (mirrors : fs.Mirrors parent chain larger locate)
    (typed : fs.kind parent = .directory) (plain : chain ≠ [] → standing name = false)
    (absent : larger.step (locate (fs.chainEnd parent chain.length)) name = .error .noEntry)
    {place : Place fs} (present : fs.Present chain place) (wanted : String) :
    (larger.create (locate (fs.chainEnd parent chain.length)) name).step
        (old _ name (locate place)) wanted =
      (fs.descend parent (chain ++ [name]) place wanted).map
        (extend chain.length locate (locate (fs.chainEnd parent chain.length)) name) := by
  have presentEnd := @present_chainEnd fs parent chain _ le_rfl
  by_cases hit : place = fs.chainEnd parent chain.length ∧ wanted = name
  · obtain ⟨rfl, rfl⟩ := hit
    obtain ⟨named, -, -⟩ := step_noEntry_iff.mp absent
    have plainAt : chain.length ≠ 0 → standing wanted = false := fun longer =>
      plain (List.length_pos_iff.mp (Nat.pos_of_ne_zero longer))
    rw [step_new absent, descend_chainEnd typed (by simp) named plainAt]
    exact congrArg Except.ok (if_pos rfl).symm
  · have other : ¬ (locate place = locate (fs.chainEnd parent chain.length) ∧ wanted = name) :=
      fun both => hit ⟨mirrors.locate_injective present presentEnd both.1, both.2⟩
    rw [step_old_of_ne other, mirrors.step place present, descend_concat present hit]
    cases stepped : fs.descend parent chain place wanted with
    | error error => rfl
    | ok next =>
        exact congrArg Except.ok (extend_of_present (present_descend present stepped)).symm

theorem descend_last (wanted : String) :
    (larger.create (locate (fs.chainEnd parent chain.length)) name).step (new _ name) wanted =
      (fs.descend parent (chain ++ [name]) (.added chain.length) wanted).map
        (extend chain.length locate (locate (fs.chainEnd parent chain.length)) name) := by
  have presentEnd := @present_chainEnd fs parent chain _ le_rfl
  have nothing : (chain ++ [name])[chain.length + 1]? = none := by simp
  have last : extend chain.length locate (locate (fs.chainEnd parent chain.length)) name
      (.added chain.length) = new _ name := if_pos rfl
  rw [descend_added]
  unfold step
  rw [kind_new, entry_new, nothing]
  by_cases empty : wanted = ""
  · subst empty
    exact congrArg Except.ok last.symm
  by_cases self : wanted = "."
  · subst self
    exact congrArg Except.ok last.symm
  by_cases above : wanted = ".."
  · subst above
    exact congrArg Except.ok (extend_of_present presentEnd).symm
  · simp [empty, self, above, Except.map]

theorem Mirrors.concat (mirrors : fs.Mirrors parent chain larger locate)
    (typed : fs.kind parent = .directory) (plain : chain ≠ [] → standing name = false)
    (absent : larger.step (locate (fs.chainEnd parent chain.length)) name = .error .noEntry) :
    fs.Mirrors parent (chain ++ [name])
      (larger.create (locate (fs.chainEnd parent chain.length)) name)
      (extend chain.length locate (locate (fs.chainEnd parent chain.length)) name) where
  size := by
    rw [List.length_append, List.length_singleton, ← Nat.add_assoc, ← mirrors.size]
    rfl
  refuses := mirrors.refuses
  number place present := by
    obtain before | rfl := present_concat present
    · rw [extend_of_present before]
      exact mirrors.number place before
    · exact (congrArg Fin.val (if_pos rfl)).trans mirrors.size
  start absolute := by
    rw [start_create, mirrors.start]
    rfl
  kind place present := by
    obtain before | rfl := present_concat present
    · rw [extend_of_present before, kind_old, mirrors.kind place before]
    · exact (congrArg _ (if_pos rfl)).trans kind_new
  step place present wanted := by
    obtain before | rfl := present_concat present
    · rw [extend_of_present before]
      exact mirrors.step_present typed plain absent before wanted
    · refine Eq.trans ?_ (descend_last wanted)
      exact congrArg (fun inode => FileSystem.step _ inode wanted) (if_pos rfl)

theorem Mirrors.walk (mirrors : fs.Mirrors parent chain larger locate) {place : Place fs}
    (present : fs.Present chain place) (names : List String) :
    larger.walk (locate place) names = (fs.follow parent chain place names).map locate := by
  induction names generalizing place with
  | nil => rfl
  | cons wanted rest inductionHypothesis =>
      rw [walk_cons, follow_cons, mirrors.step place present]
      cases stepped : fs.descend parent chain place wanted with
      | error error => rfl
      | ok next => exact inductionHypothesis (present_descend present stepped)

theorem present_follow {place next : Place fs} {names : List String}
    (present : fs.Present chain place)
    (followed : fs.follow parent chain place names = .ok next) : fs.Present chain next := by
  induction names generalizing place with
  | nil =>
      cases followed
      exact present
  | cons wanted rest inductionHypothesis =>
      rw [follow_cons] at followed
      cases stepped : fs.descend parent chain place wanted with
      | error error =>
          rw [stepped] at followed
          cases followed
      | ok middle =>
          rw [stepped] at followed
          exact inductionHypothesis (present_descend present stepped) followed

theorem Mirrors.isDirectory_iff (mirrors : fs.Mirrors parent chain larger locate) {path : Path}
    (named : path.isEmpty = false) :
    larger.IsDirectory path ↔
      ∃ place, fs.follow parent chain (.file (fs.start path.absolute)) path.segments = .ok place ∧
        fs.kindAt place = .directory := by
  have present : fs.Present chain (.file (fs.start path.absolute)) := trivial
  rw [FileSystem.isDirectory_iff named, mirrors.start, mirrors.walk present]
  cases followed :
      fs.follow parent chain (.file (fs.start path.absolute)) path.segments with
  | error error => simp [Except.map]
  | ok place => simp [Except.map, mirrors.kind place (present_follow present followed)]

end Extend

end FileSystem
end FileSystems
