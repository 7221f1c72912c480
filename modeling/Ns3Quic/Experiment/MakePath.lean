import Ns3Quic.Lib.NewDirectories

/-!
# Making the trace folders

`MakePath` creates a directory with the ancestors it lacks: where `mkdir` finds
no parent, it makes the part in front of the last slash and calls `mkdir` once
more. The function stands with the same text in `ns3-quic-util.cc` and
`tcp-tracer.cc`. What it makes is compared with `grow`, which creates the
missing names one below the other, and what it answers with a lookup in the file
system as it is before the call.

A string may hold null characters. `mkdir` and `stat` see the part in front of the
first of them, but the last slash is looked for in the whole string.
-/

open FileSystems

namespace Ns3Quic.Experiment

def formatBits : FileType → Nat
  | .fifo => 0o010000
  | .characterDevice => 0o020000
  | .directory => 0o040000
  | .blockDevice => 0o060000
  | .regular => 0o100000
  | .socket => 0o140000

def directoryBits : Nat := 0o040000

/-- `IsDirExist`: the format is tested for a common bit, not compared. -/
def isDirExist (fs : FileSystem) (path : List Char) : Bool :=
  match fs.stat (.ofText (cStr path)) with
  | none => false
  | some kind => formatBits kind &&& directoryBits != 0

theorem parentText_length {path front : List Char} (found : Path.parentText path = some front) :
    front.length < path.length := by
  obtain ⟨last, rfl, plain⟩ := Path.parentText_eq_some found
  simp

/-- `MakePath`, with the file system it leaves. -/
def makePath (fs : FileSystem) (path : List Char) : Bool × FileSystem :=
  match fs.mkdir (.ofText (cStr path)) with
  | .ok created => (true, created)
  | .error .noEntry =>
      match _found : Path.parentText path with
      | none => (false, fs)
      | some front =>
          match makePath fs front with
          | (false, made) => (false, made)
          | (true, made) =>
              match made.mkdir (.ofText (cStr path)) with
              | .ok created => (true, created)
              | .error _ => (false, made)
  | .error .alreadyExists => (isDirExist fs path, fs)
  | .error _ => (false, fs)
termination_by path.length
decreasing_by exact parentText_length _found

/-! ### Creating names one below the other -/

inductive Ending where
  | complete
  | blocked
  | refused
  deriving DecidableEq, Repr

structure Growth where
  ending : Ending
  fs : FileSystem
  directory : Fin fs.size

/-- One more name at the end of the chain. A segment that leads somewhere from
every directory is no new name and blocks the rest. -/
def Growth.add (growth : Growth) (name : String) : Growth :=
  if growth.ending ≠ .complete then growth
  else if FileSystem.standing name then { growth with ending := .blocked }
  else if growth.fs.refuses growth.directory name then { growth with ending := .refused }
  else ⟨.complete, growth.fs.create growth.directory name, FileSystem.new growth.directory name⟩

def plant (fs : FileSystem) (parent : Fin fs.size) (name : String) : Growth :=
  if fs.refuses parent name then ⟨.refused, fs, parent⟩
  else ⟨.complete, fs.create parent name, FileSystem.new parent name⟩

/-- The first missing name and the segments after it, without the empty ones
that follow it directly. -/
def grow (fs : FileSystem) (parent : Fin fs.size) (name : String) (rest : List String) : Growth :=
  (rest.dropWhile (· == "")).foldl Growth.add (plant fs parent name)

theorem grow_concat {fs : FileSystem} {parent : Fin fs.size} {name : String}
    {front : List String} {last : String}
    (further : ¬ ∀ segment ∈ front ++ [last], segment = "") :
    grow fs parent name (front ++ [last]) = (grow fs parent name front).add last := by
  have kept : (front ++ [last]).dropWhile (· == "") = front.dropWhile (· == "") ++ [last] := by
    rw [List.dropWhile_append]
    split
    · rename_i nothing
      rw [List.isEmpty_iff] at nothing
      have named : last ≠ "" := by
        intro empty
        refine further fun segment membership => ?_
        obtain inside | rfl := List.mem_append.mp membership |>.imp_right List.mem_singleton.mp
        · simpa using List.dropWhile_eq_nil_iff.mp nothing segment inside
        · exact empty
      rw [nothing, List.dropWhile_cons_of_neg (by simpa using named)]
      rfl
    · rfl
  rw [grow, kept, List.foldl_concat]
  rfl

structure Growth.Spec (growth : Growth) (absolute : Bool) (names : List String) : Prop where
  reached : growth.ending = .complete →
    growth.fs.walk (growth.fs.start absolute) names = .ok growth.directory ∧
      growth.fs.Fresh growth.directory
  lacking : growth.ending = .refused →
    growth.fs.walk (growth.fs.start absolute) names = .error .noEntry

theorem plant_spec {fs : FileSystem} {parent : Fin fs.size} {absolute : Bool}
    {known : List String} {name : String}
    (walked : fs.walk (fs.start absolute) known = .ok parent)
    (absent : fs.step parent name = .error .noEntry) :
    (plant fs parent name).Spec absolute (known ++ [name]) := by
  unfold plant
  split
  · refine ⟨(fun complete => nomatch complete), fun _ => ?_⟩
    exact FileSystem.walk_of_missing walked absent
  · exact ⟨fun _ => ⟨FileSystem.walk_new walked absent, FileSystem.fresh_new parent name⟩,
      fun refused => nomatch refused⟩

theorem Growth.Spec.add {growth : Growth} {absolute : Bool} {names : List String}
    (spec : growth.Spec absolute names) (name : String) :
    (growth.add name).Spec absolute (names ++ [name]) := by
  unfold Growth.add
  split_ifs with ended stands refused
  · exact ⟨fun complete => absurd complete ended,
      fun refused => FileSystem.walk_append_of_error (spec.lacking refused) [name]⟩
  · exact ⟨(fun complete => nomatch complete), (fun refused => nomatch refused)⟩
  all_goals
    obtain ⟨walked, fresh⟩ := spec.reached (not_not.mp ended)
    have absent := fresh.lacks name (by simpa using stands)
  · refine ⟨(fun complete => nomatch complete), fun _ => ?_⟩
    change growth.fs.walk _ _ = _
    exact FileSystem.walk_of_missing walked absent
  · exact ⟨fun _ => ⟨FileSystem.walk_new walked absent, FileSystem.fresh_new _ name⟩,
      fun refused => nomatch refused⟩

theorem Growth.Spec.addAll {growth : Growth} {absolute : Bool} {names : List String}
    (spec : growth.Spec absolute names) (rest : List String) :
    (rest.foldl Growth.add growth).Spec absolute (names ++ rest) := by
  induction rest generalizing growth names with
  | nil => rwa [List.append_nil]
  | cons name rest inductionHypothesis =>
      have further := inductionHypothesis (spec.add name)
      rwa [List.append_assoc, List.singleton_append] at further

theorem Growth.Spec.empties {growth : Growth} {absolute : Bool} {names rest : List String}
    (spec : growth.Spec absolute names) (empties : ∀ name ∈ rest, name = "") :
    growth.Spec absolute (names ++ rest) := by
  refine ⟨fun complete => ?_, fun refused =>
    FileSystem.walk_append_of_error (spec.lacking refused) _⟩
  obtain ⟨walked, fresh⟩ := spec.reached complete
  exact ⟨(FileSystem.walk_append_of_ok walked _).trans (FileSystem.walk_empties _ empties), fresh⟩

theorem grow_spec {fs : FileSystem} {parent : Fin fs.size} {absolute : Bool}
    {known : List String} {name : String}
    (walked : fs.walk (fs.start absolute) known = .ok parent)
    (absent : fs.step parent name = .error .noEntry) (rest : List String) :
    (grow fs parent name rest).Spec absolute (known ++ name :: rest) := by
  have skipped : ∀ segment ∈ rest.takeWhile (· == ""), segment = "" := by
    intro segment membership
    simpa using List.mem_takeWhile_imp membership
  have spec := ((plant_spec walked absent).empties skipped).addAll (rest.dropWhile (· == ""))
  rwa [List.append_assoc, List.takeWhile_append_dropWhile, List.append_assoc,
    List.singleton_append] at spec

/-! ### What the function makes -/

theorem makePath_of_noEntry {fs : FileSystem} {path front : List Char}
    (failed : fs.mkdir (.ofText (cStr path)) = .error .noEntry)
    (found : Path.parentText path = some front) :
    makePath fs path =
      match makePath fs front with
      | (false, made) => (false, made)
      | (true, made) =>
          match made.mkdir (.ofText (cStr path)) with
          | .ok created => (true, created)
          | .error _ => (false, made) := by
  rw [makePath, failed]
  dsimp only
  split
  · rename_i missing
    rw [found] at missing
    cases missing
  · rename_i same
    rw [found] at same
    cases same
    rfl

theorem makePath_of_noParent {fs : FileSystem} {path : List Char}
    (failed : fs.mkdir (.ofText (cStr path)) = .error .noEntry)
    (alone : Path.parentText path = none) : makePath fs path = (false, fs) := by
  rw [makePath, failed]
  dsimp only
  split
  · rfl
  · rename_i found
    rw [alone] at found
    cases found

theorem parentText_of_several {path : List Char} {front : List String} {last : String}
    (split : (Path.ofText path).segments = front ++ [last]) (several : front ≠ []) :
    ∃ before, Path.parentText path = some before ∧
      Path.ofText path = (Path.ofText before).child last ∧
      (Path.ofText before).segments = front := by
  have parents : (Path.ofText path).parents ≠ [] := by
    intro alone
    unfold Path.segments at split
    rw [alone] at split
    have lengths := congrArg List.length split
    exact several (by simpa using lengths)
  cases found : Path.parentText path with
  | none => exact absurd (Path.parents_ofText_eq_nil (Path.parentText_eq_none found)).1 parents
  | some before =>
      obtain ⟨characters, rfl, plain⟩ := Path.parentText_eq_some found
      cases before with
      | nil => exact absurd (Path.parents_ofText_eq_nil plain).2 parents
      | cons first others =>
          have cut := Path.ofText_concat (List.cons_ne_nil first others) plain
          rw [cut, Path.segments_child] at split
          obtain ⟨same, sameLast⟩ := List.append_inj' split rfl
          cases sameLast
          exact ⟨first :: others, rfl, cut, same⟩

def Growth.result (growth : Growth) : Bool × FileSystem :=
  (decide (growth.ending = .complete), growth.fs)

theorem plant_result {fs : FileSystem} {parent : Fin fs.size} {name : String} :
    (plant fs parent name).result =
      if fs.refuses parent name then (false, fs) else (true, fs.create parent name) := by
  unfold plant
  split <;> rfl

theorem add_result {growth : Growth} {path : Path} {last : String}
    (complete : growth.ending = .complete)
    (spec : growth.Spec path.absolute path.segments) :
    (growth.add last).result =
      match growth.fs.mkdir (path.child last) with
      | .ok created => (true, created)
      | .error _ => (false, growth.fs) := by
  obtain ⟨walked, fresh⟩ := spec.reached complete
  unfold Growth.add
  rw [if_neg (not_not_intro complete)]
  by_cases stands : FileSystem.standing last = true
  · obtain ⟨child, stepped⟩ := fresh.leads last stands
    have found : growth.fs.walk (growth.fs.start (path.child last).absolute)
        (path.child last).segments = .ok child := by
      rw [Path.segments_child]
      refine (FileSystem.walk_append_of_ok walked [last]).trans ?_
      rw [FileSystem.walk_cons, stepped]
      rfl
    rw [if_pos stands, FileSystem.mkdir_of_walk (Path.isEmpty_child path last) found]
    rfl
  · have absent := fresh.lacks last (by simpa using stands)
    obtain ⟨named, -, -⟩ := FileSystem.step_noEntry_iff.mp absent
    have made : growth.fs.mkdir (path.child last) =
        if growth.fs.refuses growth.directory last then .error .other
        else .ok (growth.fs.create growth.directory last) := by
      rw [FileSystem.mkdir_eq (Path.segments_child path last) named
        fun segment membership => nomatch membership]
      change growth.fs.walk (growth.fs.start path.absolute) path.segments >>= _ = _
      rw [walked]
      exact FileSystem.makeEntry_of_absent absent
    rw [if_neg stands, made]
    split_ifs <;> rfl

/-- `MakePath` creates the missing part of the path, as far as `grow` can. -/
theorem makePath_of_missing {fs : FileSystem} {path : List Char} {parent : Fin fs.size}
    {name : String} {rest : List String} (plain : '\x00' ∉ path)
    (missing : fs.firstMissing (fs.start (Path.ofText path).absolute) (Path.ofText path).segments =
      some (parent, name, rest)) :
    makePath fs path = (grow fs parent name rest).result := by
  induction size : path.length using Nat.strong_induction_on generalizing path rest with
  | _ size inductionHypothesis =>
      obtain ⟨known, split, walked, absent⟩ := FileSystem.firstMissing_eq_some missing
      by_cases empties : ∀ segment ∈ rest, segment = ""
      · -- the missing name is the last one: the first `mkdir` decides
        have nothing : rest.dropWhile (· == "") = [] :=
          List.dropWhile_eq_nil_iff.mpr fun segment membership => by
            simp [empties segment membership]
        have created := FileSystem.mkdir_of_last_missing split walked absent empties
        rw [makePath, cStr_eq_self_iff.mpr plain, created, grow, nothing, List.foldl_nil,
          plant_result]
        split_ifs <;> rfl
      · -- another name follows: the part before the last slash comes first
        have failed := FileSystem.mkdir_of_missing split walked absent empties
        obtain rfl | ⟨front, last, rfl⟩ := rest.eq_nil_or_concat'
        · exact absurd (fun _ membership => nomatch membership) empties
        · rw [← List.cons_append, ← List.append_assoc] at split
          obtain ⟨before, found, cut, segments⟩ := parentText_of_several split (by simp)
          have start : (Path.ofText before).absolute = (Path.ofText path).absolute :=
            (congrArg Path.absolute cut).symm
          have made : makePath fs before = (grow fs parent name front).result := by
            refine inductionHypothesis _ (size ▸ parentText_length found) ?_ ?_ rfl
            · obtain ⟨_, rfl, -⟩ := Path.parentText_eq_some found
              exact fun present => plain (List.mem_append_left _ present)
            rw [segments, start]
            exact FileSystem.firstMissing_append walked absent
          have spec := grow_spec walked absent front
          rw [← segments, ← start] at spec
          rw [← cStr_eq_self_iff.mpr plain] at failed
          rw [makePath_of_noEntry failed found, made, grow_concat empties, Growth.result,
            cStr_eq_self_iff.mpr plain]
          by_cases complete : (grow fs parent name front).ending = .complete
          · rw [add_result complete spec, decide_eq_true complete, cut]
          · rw [decide_eq_false complete, Growth.add, if_pos complete, Growth.result,
              decide_eq_false complete]

/-! ### What the chain leads to -/

def Growth.Mirrors (growth : Growth) (fs : FileSystem) (parent : Fin fs.size)
    (chain : List String) : Prop :=
  ∃ locate, fs.Mirrors parent chain growth.fs locate ∧
    locate (fs.chainEnd parent chain.length) = growth.directory

theorem Growth.Mirrors.refuses {growth : Growth} {fs : FileSystem} {parent : Fin fs.size}
    {chain : List String} (mirrors : growth.Mirrors fs parent chain) (name : String) :
    growth.fs.refuses growth.directory name =
      fs.refuses (fs.number (fs.chainEnd parent chain.length)) name := by
  obtain ⟨locate, mirrors, last⟩ := mirrors
  rw [← last, mirrors.refuses, mirrors.number _ (FileSystem.present_chainEnd le_rfl)]

theorem Growth.Mirrors.concat {growth : Growth} {fs : FileSystem} {parent : Fin fs.size}
    {chain : List String} (mirrors : growth.Mirrors fs parent chain)
    (typed : fs.kind parent = .directory) {name : String}
    (plain : chain ≠ [] → FileSystem.standing name = false)
    (absent : growth.fs.step growth.directory name = .error .noEntry) :
    Growth.Mirrors ⟨.complete, growth.fs.create growth.directory name,
      FileSystem.new growth.directory name⟩ fs parent (chain ++ [name]) := by
  obtain ⟨locate, mirrors, last⟩ := mirrors
  rw [← last] at absent
  have extended := mirrors.concat typed plain absent
  rw [last] at extended
  refine ⟨_, extended, ?_⟩
  rw [List.length_append]
  exact if_pos rfl

theorem Growth.Mirrors.absent {growth : Growth} {fs : FileSystem} {parent : Fin fs.size}
    {chain : List String} (mirrors : growth.Mirrors fs parent chain) (nonempty : chain ≠ [])
    {name : String} (plain : FileSystem.standing name = false) :
    growth.fs.step growth.directory name = .error .noEntry := by
  obtain ⟨locate, mirrors, last⟩ := mirrors
  obtain ⟨⟨named, notSelf⟩, notParent⟩ : (name ≠ "" ∧ name ≠ ".") ∧ name ≠ ".." := by
    simpa [FileSystem.standing] using plain
  rw [← last, mirrors.step _ (FileSystem.present_chainEnd le_rfl)]
  obtain ⟨index, length⟩ := Nat.exists_eq_succ_of_ne_zero (List.length_pos_iff.mpr nonempty).ne'
  have nothing : chain[index + 1]? = none := List.getElem?_eq_none length.le
  rw [length, FileSystem.chainEnd, FileSystem.descend_added, nothing]
  simp [named, notSelf, notParent, Except.map]

theorem foldl_add_of_ended {growth : Growth} (ended : growth.ending ≠ .complete)
    (names : List String) : names.foldl Growth.add growth = growth := by
  induction names with
  | nil => rfl
  | cons name rest inductionHypothesis =>
      rw [List.foldl_cons, Growth.add, if_pos ended]
      exact inductionHypothesis

/-- If no name is refused, a chain is blocked by the first segment that stands,
and complete if there is none. -/
theorem Growth.Mirrors.addAll {growth : Growth} {fs : FileSystem} {parent : Fin fs.size}
    {chain : List String} (mirrors : growth.Mirrors fs parent chain) (nonempty : chain ≠ [])
    (typed : fs.kind parent = .directory) (complete : growth.ending = .complete)
    (permits : fs.Permits parent chain) (names : List String) :
    ((names.foldl Growth.add growth).ending = .blocked ↔
      names.dropWhile (!FileSystem.standing ·) ≠ [] ∧
        fs.Permits parent (chain ++ names.takeWhile (!FileSystem.standing ·))) ∧
    ((names.foldl Growth.add growth).ending = .complete ↔
      names.dropWhile (!FileSystem.standing ·) = [] ∧
        fs.Permits parent (chain ++ names.takeWhile (!FileSystem.standing ·))) ∧
    ((names.foldl Growth.add growth).ending = .blocked →
      (names.foldl Growth.add growth).Mirrors fs parent
        (chain ++ names.takeWhile (!FileSystem.standing ·))) := by
  induction names generalizing growth chain with
  | nil => simp [complete, permits]
  | cons name rest inductionHypothesis =>
      rw [List.foldl_cons, Growth.add, if_neg (not_not_intro complete)]
      by_cases stands : FileSystem.standing name = true
      · rw [if_pos stands, foldl_add_of_ended (by simp)]
        simp only [List.takeWhile_cons, List.dropWhile_cons, stands, Bool.not_true,
          Bool.false_eq_true, if_false, List.append_nil]
        exact ⟨iff_of_true trivial ⟨List.cons_ne_nil _ _, permits⟩, by simp, fun _ => mirrors⟩
      · have plain : FileSystem.standing name = false := by simpa using stands
        rw [if_neg stands, mirrors.refuses]
        simp only [List.takeWhile_cons, List.dropWhile_cons, plain, Bool.not_false, if_true]
        cases refused : fs.refuses (fs.number (fs.chainEnd parent chain.length)) name with
        | true =>
            rw [if_pos rfl, foldl_add_of_ended (by simp)]
            have forbidden : ¬ fs.Permits parent
                (chain ++ name :: rest.takeWhile (!FileSystem.standing ·)) := by
              intro permits
              cases refused.symm.trans (permits chain.length name (by simp))
            simp [forbidden]
        | false =>
            have further := inductionHypothesis
              (mirrors.concat typed (fun _ => plain) (mirrors.absent nonempty plain))
              (by simp) rfl (FileSystem.permits_concat_iff.mpr ⟨permits, refused⟩)
            rwa [List.append_assoc, List.singleton_append] at further

/-- The first missing name and those that are created below it: the empty
segments directly after the first are skipped, and a segment that stands ends
the chain. -/
def newNames (name : String) (rest : List String) : List String :=
  name :: (rest.dropWhile (· == "")).takeWhile (!FileSystem.standing ·)

def remaining (rest : List String) : List String :=
  (rest.dropWhile (· == "")).dropWhile (!FileSystem.standing ·)

theorem grow_ending {fs : FileSystem} {parent : Fin fs.size} {name : String}
    (absent : fs.step parent name = .error .noEntry) (rest : List String) :
    ((grow fs parent name rest).ending = .blocked ↔
      remaining rest ≠ [] ∧ fs.Permits parent (newNames name rest)) ∧
    ((grow fs parent name rest).ending = .complete ↔
      remaining rest = [] ∧ fs.Permits parent (newNames name rest)) ∧
    ((grow fs parent name rest).ending = .blocked →
      (grow fs parent name rest).Mirrors fs parent (newNames name rest)) := by
  obtain ⟨-, typed, -⟩ := FileSystem.step_noEntry_iff.mp absent
  have first : Growth.Mirrors ⟨.complete, fs, parent⟩ fs parent [] :=
    ⟨_, FileSystem.mirrors_nil fs parent, rfl⟩
  unfold grow plant newNames remaining
  cases refused : fs.refuses parent name with
  | true =>
      rw [if_pos rfl, foldl_add_of_ended (by simp)]
      have forbidden (names : List String) : ¬ fs.Permits parent (name :: names) := by
        intro permits
        cases refused.symm.trans (permits 0 name rfl)
      simp [forbidden]
  | false =>
      have planted := first.concat typed (fun nonempty => absurd rfl nonempty) absent
      refine planted.addAll (by simp) typed rfl ?_ _
      exact FileSystem.permits_concat_iff.mpr ⟨(fun _ _ found => by simp at found), refused⟩

theorem follow_segments {fs : FileSystem} {inode parent : Fin fs.size} {known : List String}
    {name : String} (walked : fs.walk inode known = .ok parent)
    (absent : fs.step parent name = .error .noEntry) (rest : List String) :
    fs.follow parent (newNames name rest) (.file inode) (known ++ name :: rest) =
      fs.follow parent (newNames name rest)
        (fs.chainEnd parent (newNames name rest).length) (remaining rest) := by
  obtain ⟨named, typed, -⟩ := FileSystem.step_noEntry_iff.mp absent
  have front := @FileSystem.follow_of_walk fs parent (newNames name rest)
    (fun first found => by cases found; exact absent) _ _ _ walked
  have entered : fs.descend parent (newNames name rest) (.file parent) name =
      .ok (fs.chainEnd parent 1) :=
    FileSystem.descend_chainEnd typed rfl named fun positive => absurd rfl positive
  have empties : ∀ segment ∈ rest.takeWhile (· == ""), segment = "" := by
    intro segment membership
    simpa using List.mem_takeWhile_imp membership
  have plain : ∀ segment ∈ (rest.dropWhile (· == "")).takeWhile (!FileSystem.standing ·),
      FileSystem.standing segment = false := by
    intro segment membership
    simpa using List.mem_takeWhile_imp membership
  have down := @FileSystem.follow_chain fs parent (newNames name rest) typed [name] _ rfl plain
  have parts : rest = rest.takeWhile (· == "") ++
      ((rest.dropWhile (· == "")).takeWhile (!FileSystem.standing ·) ++ remaining rest) := by
    rw [remaining, List.takeWhile_append_dropWhile, List.takeWhile_append_dropWhile]
  rw [FileSystem.follow_append_of_ok front, FileSystem.follow_cons, entered]
  refine (congrArg (fs.follow parent (newNames name rest) (fs.chainEnd parent 1)) parts).trans ?_
  rw [FileSystem.follow_append_of_ok (FileSystem.follow_empties _ empties)]
  exact FileSystem.follow_append_of_ok down _

/-- Where the new names can be created, the path names a directory exactly if
what remains of it behind them leads from the last of them to one. -/
structure LeadsToDirectory (fs : FileSystem) (parent : Fin fs.size) (name : String)
    (rest : List String) : Prop where
  permits : fs.Permits parent (newNames name rest)
  directory : ∃ place,
    fs.follow parent (newNames name rest) (fs.chainEnd parent (newNames name rest).length)
      (remaining rest) = .ok place ∧ fs.kindAt place = .directory

theorem grow_isDirectory_iff {fs : FileSystem} {path : Path} {parent : Fin fs.size}
    {name : String} {rest : List String}
    (missing : fs.firstMissing (fs.start path.absolute) path.segments =
      some (parent, name, rest)) :
    (grow fs parent name rest).fs.IsDirectory path ↔ LeadsToDirectory fs parent name rest := by
  obtain ⟨known, split, walked, absent⟩ := FileSystem.firstMissing_eq_some missing
  obtain ⟨blocks, completes, mirrored⟩ := grow_ending absent rest
  have spec := grow_spec walked absent rest
  rw [← split] at spec
  obtain ⟨named, -, -⟩ := FileSystem.step_noEntry_iff.mp absent
  have nonempty : path.isEmpty = false := Path.isEmpty_eq_false (by simp [split]) named
  cases ending : (grow fs parent name rest).ending with
  | complete =>
      obtain ⟨reached, fresh⟩ := spec.reached ending
      obtain ⟨nothing, permits⟩ := completes.mp ending
      refine iff_of_true ((FileSystem.isDirectory_iff nonempty).mpr ⟨_, reached, fresh.directory⟩)
        ⟨permits, fs.chainEnd parent (newNames name rest).length, ?_, rfl⟩
      rw [nothing]
      rfl
  | blocked =>
      obtain ⟨-, permits⟩ := blocks.mp ending
      obtain ⟨locate, mirrors, -⟩ := mirrored ending
      have answer := mirrors.isDirectory_iff nonempty
      rw [split, follow_segments walked absent rest] at answer
      exact answer.trans ⟨fun found => ⟨permits, found⟩, fun leads => leads.directory⟩
  | refused =>
      have absentStill : ¬ (grow fs parent name rest).fs.IsDirectory path := by
        unfold FileSystem.IsDirectory
        rw [FileSystem.stat_of_error (spec.lacking ending)]
        nofun
      refine iff_of_false absentStill fun leads => ?_
      by_cases nothing : remaining rest = []
      · cases ending.symm.trans (completes.mpr ⟨nothing, leads.permits⟩)
      · cases ending.symm.trans (blocks.mpr ⟨nothing, leads.permits⟩)

/-! ### A path without a missing part -/

/-- The bit test takes sockets and block devices for directories. -/
theorem isDirExist_iff {fs : FileSystem} {path : List Char} :
    isDirExist fs path = true ↔
      fs.IsDirectory (.ofText (cStr path)) ∨ fs.stat (.ofText (cStr path)) = some .socket ∨
        fs.stat (.ofText (cStr path)) = some .blockDevice := by
  unfold isDirExist FileSystem.IsDirectory
  cases fs.stat (.ofText (cStr path)) with
  | none => simp
  | some kind => cases kind <;> decide

theorem makePath_of_complete {fs : FileSystem} {path : List Char} (plain : '\x00' ∉ path)
    (complete : fs.firstMissing (fs.start (Path.ofText path).absolute)
      (Path.ofText path).segments = none) :
    fs.mkdir (.ofText path) = .error .alreadyExists ∨
      fs.stat (.ofText path) = none ∧ makePath fs path = (false, fs) := by
  have same := cStr_eq_self_iff.mpr plain
  cases empty : (Path.ofText path).isEmpty with
  | true =>
      have failed : fs.mkdir (.ofText path) = .error .noEntry := if_pos empty
      rw [← same] at failed
      exact Or.inr ⟨if_pos empty, makePath_of_noParent failed (Path.parentText_of_isEmpty empty)⟩
  | false =>
      obtain ⟨reached, walked⟩ | ⟨known, name, rest, parent, split, named, walked, typed⟩ :=
        FileSystem.walk_of_firstMissing_eq_none complete
      · exact Or.inl (FileSystem.mkdir_of_walk empty walked)
      · have failed : fs.walk (fs.start (Path.ofText path).absolute) (Path.ofText path).segments =
            .error .notDirectory := by
          rw [split]
          exact FileSystem.walk_of_not_directory walked named typed
        refine Or.inr ⟨FileSystem.stat_of_error failed, ?_⟩
        rw [makePath, same, FileSystem.mkdir_of_not_directory split named walked typed]

/-! ### Null characters -/

/-- What stands behind a null character matters only for the recursive call, and
only if there is a slash. -/
theorem makePath_cStr {fs : FileSystem} {path : List Char}
    (unaffected : fs.mkdir (.ofText (cStr path)) ≠ .error .noEntry ∨ '/' ∉ unseen path) :
    makePath fs path = makePath fs (cStr path) := by
  have sameTest : isDirExist fs (cStr path) = isDirExist fs path := by
    unfold isDirExist
    rw [cStr_cStr]
  cases made : fs.mkdir (.ofText (cStr path)) with
  | ok created => rw [makePath, made, makePath, cStr_cStr, made]
  | error error =>
      cases error with
      | noEntry =>
          have parents := Path.parentText_cStr (unaffected.resolve_left (not_not_intro made))
          have madeAgain : fs.mkdir (.ofText (cStr (cStr path))) = .error .noEntry := by
            rw [cStr_cStr, made]
          cases found : Path.parentText path with
          | none =>
              rw [makePath_of_noParent made found,
                makePath_of_noParent madeAgain (parents.symm.trans found)]
          | some front =>
              rw [makePath_of_noEntry made found,
                makePath_of_noEntry madeAgain (parents.symm.trans found), cStr_cStr]
      | alreadyExists => rw [makePath, made, makePath, cStr_cStr, made, sameTest]
      | notDirectory => rw [makePath, made, makePath, cStr_cStr, made]
      | other => rw [makePath, made, makePath, cStr_cStr, made]

/-- What the function has made with its second `mkdir` cannot be made again. -/
theorem mkdir_of_makePath {fs made : FileSystem} {path : List Char} (plain : '\x00' ∉ path)
    (failed : fs.mkdir (.ofText path) = .error .noEntry)
    (answer : makePath fs path = (true, made)) :
    made.mkdir (.ofText path) = .error .alreadyExists := by
  cases missing : fs.firstMissing (fs.start (Path.ofText path).absolute)
      (Path.ofText path).segments with
  | none =>
      rcases makePath_of_complete plain missing with existing | ⟨-, refused⟩
      · cases failed.symm.trans existing
      · cases answer.symm.trans refused
  | some found =>
      obtain ⟨parent, name, rest⟩ := found
      obtain ⟨known, split, walked, absent⟩ := FileSystem.firstMissing_eq_some missing
      obtain ⟨named, -, -⟩ := FileSystem.step_noEntry_iff.mp absent
      have spec := grow_spec walked absent rest
      rw [makePath_of_missing plain missing] at answer
      obtain ⟨complete, rfl⟩ := Prod.mk.inj answer
      rw [← split] at spec
      exact FileSystem.mkdir_of_walk (Path.isEmpty_eq_false (by simp [split]) named)
        (spec.reached (of_decide_eq_true complete)).1

/-- With a slash behind a null character the recursive call is made for the same
C string, and the second `mkdir` fails. -/
theorem makePath_of_unseen {fs : FileSystem} {path : List Char} (slash : '/' ∈ unseen path)
    (failed : fs.mkdir (.ofText (cStr path)) = .error .noEntry) :
    makePath fs path = (false, (makePath fs (cStr path)).2) := by
  induction size : path.length using Nat.strong_induction_on generalizing path with
  | _ size inductionHypothesis =>
      obtain ⟨front, found, same⟩ := Path.parentText_of_unseen slash
      rw [makePath_of_noEntry failed found]
      by_cases more : '/' ∈ unseen front
      · rw [inductionHypothesis _ (size ▸ parentText_length found) more (same ▸ failed) rfl, same]
      · rw [makePath_cStr (Or.inr more), same]
        rcases answer : makePath fs (cStr path) with ⟨success, made⟩
        cases success with
        | false => rfl
        | true =>
            dsimp only
            rw [mkdir_of_makePath (null_notMem_cStr path) failed answer]

/-! ### What the function answers -/

/-- The answer is that the path names a directory afterwards. -/
def AnswersTruly (fs : FileSystem) (path : List Char) : Prop :=
  (makePath fs path).1 = true ↔ (makePath fs path).2.IsDirectory (.ofText (cStr path))

instance (fs : FileSystem) (path : List Char) : Decidable (AnswersTruly fs path) :=
  inferInstanceAs (Decidable (_ ↔ _))

/-- The path names no socket and no block device.  If a part of it is missing and
it leads to a directory once the new names are created, then nothing remains of
it behind them; and if a slash stands behind a null character, only the last
name is missing. -/
structure Unblocked (fs : FileSystem) (path : List Char) : Prop where
  socket : fs.stat (.ofText (cStr path)) ≠ some .socket
  device : fs.stat (.ofText (cStr path)) ≠ some .blockDevice
  whole : ∀ parent name rest,
    fs.firstMissing (fs.start (Path.ofText (cStr path)).absolute)
      (Path.ofText (cStr path)).segments = some (parent, name, rest) →
    LeadsToDirectory fs parent name rest →
      remaining rest = [] ∧ ('/' ∈ unseen path → ∀ segment ∈ rest, segment = "")

theorem answersTruly_of_missing {fs : FileSystem} {path : List Char} {parent : Fin fs.size}
    {name : String} {rest : List String}
    (missing : fs.firstMissing (fs.start (Path.ofText (cStr path)).absolute)
      (Path.ofText (cStr path)).segments = some (parent, name, rest)) :
    AnswersTruly fs path ↔ (LeadsToDirectory fs parent name rest →
      remaining rest = [] ∧ ('/' ∈ unseen path → ∀ segment ∈ rest, segment = "")) := by
  obtain ⟨known, split, walked, absent⟩ := FileSystem.firstMissing_eq_some missing
  have answer := makePath_of_missing (null_notMem_cStr path) missing
  have present := grow_isDirectory_iff missing
  have completes := (grow_ending absent rest).2.1
  unfold AnswersTruly
  by_cases again : '/' ∈ unseen path ∧ ¬ ∀ segment ∈ rest, segment = ""
  · have failed := FileSystem.mkdir_of_missing split walked absent again.2
    rw [makePath_of_unseen again.1 failed, answer]
    simp only [Growth.result, present, Bool.false_eq_true, false_iff]
    exact ⟨fun never leads => absurd leads never, fun whole leads =>
      again.2 ((whole leads).2 again.1)⟩
  · have unaffected : fs.mkdir (.ofText (cStr path)) ≠ .error .noEntry ∨ '/' ∉ unseen path := by
      by_cases slash : '/' ∈ unseen path
      · have empties := by_contra fun further => again ⟨slash, further⟩
        rw [FileSystem.mkdir_of_last_missing split walked absent empties]
        exact Or.inl (by split <;> simp)
      · exact Or.inr slash
    rw [makePath_cStr unaffected, answer]
    simp only [Growth.result, present, decide_eq_true_iff, completes]
    constructor
    · exact fun same leads => ⟨(same.mpr leads).1, fun slash =>
        by_contra fun further => again ⟨slash, further⟩⟩
    · refine fun whole => ⟨fun complete => ?_, fun leads => ⟨(whole leads).1, leads.permits⟩⟩
      exact ⟨complete.2, fs.chainEnd parent (newNames name rest).length,
        by rw [complete.1]; rfl, rfl⟩

theorem answersTruly_of_complete {fs : FileSystem} {path : List Char}
    (complete : fs.firstMissing (fs.start (Path.ofText (cStr path)).absolute)
      (Path.ofText (cStr path)).segments = none) :
    AnswersTruly fs path ↔ fs.stat (.ofText (cStr path)) ≠ some .socket ∧
      fs.stat (.ofText (cStr path)) ≠ some .blockDevice := by
  unfold AnswersTruly
  rcases makePath_of_complete (null_notMem_cStr path) complete with existing | ⟨nothing, refused⟩
  · have answer : makePath fs path = (isDirExist fs path, fs) := by
      rw [makePath, existing]
    rw [answer, isDirExist_iff]
    unfold FileSystem.IsDirectory
    cases fs.stat (.ofText (cStr path)) with
    | none => simp
    | some kind => cases kind <;> decide
  · have answer : makePath fs path = (false, fs) := by
      by_cases affected : fs.mkdir (.ofText (cStr path)) = .error .noEntry ∧ '/' ∈ unseen path
      · rw [makePath_of_unseen affected.2 affected.1, refused]
      · rw [makePath_cStr (not_and_or.mp affected), refused]
    rw [answer]
    simp [FileSystem.IsDirectory, nothing]

def emptyDisk : FileSystem where
  size := 1
  kind _ := .directory
  entry _ name := if name = "." ∨ name = ".." then some 0 else none
  refuses _ _ := false
  root := 0
  cwd := 0
  root_directory := rfl
  cwd_directory := rfl

end Ns3Quic.Experiment
