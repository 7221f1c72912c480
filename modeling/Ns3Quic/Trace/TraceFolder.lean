import Ns3Quic.Lib.FileSystem
import Ns3Quic.Lib.Fold
import Ns3Quic.Lib.Run
import Ns3Quic.Trace.ServerTrace

/-!
# The trace folder

`set_quic_trace_folder` keeps a folder for the trace files in a global string.
Whether it puts a slash at the end of a new path is decided by a character of
the folder that it replaces, at the position where the new path ends.

A `Char` stands for a C++ `char`, and a list of them for a `std::string`, which
may hold null characters.  Files are opened by the `c_str()` of their names.
-/

namespace Ns3Quic.Trace

open FileSystems LoopRules TransitionSystem

inductive FolderFault where
  /-- `operator[]` with a position beyond the end of the string. -/
  | outOfRange
  deriving DecidableEq, Repr

/-- `std::string::operator[]`.  The position after the last character holds the
null character; what is read beyond it is undefined. -/
def charAt (text : List Char) (position : Nat) : Except FolderFault Char :=
  match text[position]? with
  | some character => .ok character
  | none => if position = text.length then .ok '\x00' else .error .outOfRange

def pathLen (path : List Char) : Int := Int.bmod path.length (2 ^ 32)

/-- `len - 1` as an argument of `operator[]`. -/
def lastPosition (path : List Char) : Nat := ((pathLen path - 1) % 2 ^ 64).toNat

def setQuicTraceFolder (folder path : List Char) : Except FolderFault (List Char) :=
  if pathLen path ≠ 0 then
    match charAt folder (lastPosition path) with
    | .error fault => .error fault
    | .ok character => if character ≠ '/' then .ok (path ++ ['/']) else .ok path
  else
    .ok path

def afterCalls (paths : List (List Char)) : Except FolderFault (List Char) :=
  paths.foldlM setQuicTraceFolder []

/-! ## The files -/

/-- `E_QC_CWND`, `E_QC_IN_FLIGHT` and `E_QC_SEND_RATE`. -/
def enableCwnd : UInt8 := 0x01

def enableInFlight : UInt8 := 0x02

def enableSendRate : UInt8 := 0x04

/-- The name of the traces of a flow; `cwd` is the working directory. -/
def traceName (cwd folder flow : List Char) : List Char :=
  if folder.length = 0 then cwd ++ "/traces/".toList ++ flow else folder ++ flow

def clientSuffixes (e : UInt8) : List (List Char) :=
  (if e &&& enableCwnd != 0 then ["_cwnd.txt".toList] else []) ++
    (if e &&& enableInFlight != 0 then ["_inflight.txt".toList] else []) ++
    if e &&& enableSendRate != 0 then ["_sendrate.txt".toList] else []

def serverSuffixes (e : UInt8) : List (List Char) :=
  (if e &&& enableOwd != 0 then ["_owd.txt".toList] else []) ++
    (if e &&& enableLost != 0 then ["_lost.txt".toList] else []) ++
    if e &&& enableGoodput != 0 then ["_goodput.txt".toList] else []

def logEnable (cwd folder flow : List Char) (e : UInt8) : List (List Char) :=
  (clientSuffixes e).map fun suffix => cStr (traceName cwd folder flow ++ suffix)

/-- The files that the constructor of `Ns3QuicServerTrace` opens. -/
def serverTraceFiles (cwd folder flow : List Char) (e : UInt8) : List (List Char) :=
  (serverSuffixes e).map fun suffix => cStr (traceName cwd folder flow ++ suffix)

def openUtilFile (cwd folder topoId : List Char) : List Char :=
  if folder.length = 0 then cStr (cwd ++ "/traces/".toList ++ topoId ++ "_util.txt".toList)
  else cStr (folder ++ topoId ++ "_util.txt".toList)

/-! ## The last path -/

/-- The path with a slash at its end, unless it is empty. -/
def withSlash (path : List Char) : List Char :=
  if path = [] ∨ path.getLast? = some '/' then path else path ++ ['/']

def lastPath (paths : List (List Char)) : List Char := paths.getLast?.getD []

/-- What the names of the files are made of, apart from the folder. -/
structure TraceNames where
  cwd : List Char
  flow : List Char
  topoId : List Char

structure FilesIn (names : TraceNames) (folder current : List Char) : Prop where
  client : ∀ e, logEnable names.cwd current names.flow e =
    (clientSuffixes e).map (folder ++ names.flow ++ ·)
  server : ∀ e, serverTraceFiles names.cwd current names.flow e =
    (serverSuffixes e).map (folder ++ names.flow ++ ·)
  util : openUtilFile names.cwd current names.topoId =
    folder ++ names.topoId ++ "_util.txt".toList

/-- The folder after the calls is the last path with its slash, and a non-empty
path names the folder of all files. -/
def FollowsLastPath (names : TraceNames) (paths : List (List Char)) : Prop :=
  ∃ folder, afterCalls paths = .ok folder ∧ folder = withSlash (lastPath paths) ∧
    (lastPath paths ≠ [] → FilesIn names (withSlash (lastPath paths)) folder)

/-- The character read in the old folder is there, and is a slash exactly if the
new path ends in one. -/
def Suits (folder path : List Char) : Prop :=
  if pathLen path = 0 then path = [] ∨ path.getLast? = some '/'
  else lastPosition path ≤ folder.length ∧
    (folder[lastPosition path]? = some '/' ↔ path.getLast? = some '/')

instance (folder path : List Char) : Decidable (Suits folder path) :=
  inferInstanceAs (Decidable (ite _ _ _))

/-- A null character would cut the name of a file in the folder. -/
structure Uncut (names : TraceNames) (path : List Char) : Prop where
  path : '\x00' ∉ path
  flow : '\x00' ∉ names.flow
  topoId : '\x00' ∉ names.topoId

theorem withSlash_eq_self_iff {path : List Char} :
    withSlash path = path ↔ path = [] ∨ path.getLast? = some '/' := by
  unfold withSlash
  split_ifs with ends
  · exact iff_of_true rfl ends
  · exact iff_of_false (by simp) ends

theorem withSlash_eq_append_iff {path : List Char} :
    withSlash path = path ++ ['/'] ↔ ¬ (path = [] ∨ path.getLast? = some '/') := by
  unfold withSlash
  split_ifs with ends
  · exact iff_of_false (by simp) (not_not_intro ends)
  · exact iff_of_true rfl ends

theorem withSlash_ne_nil {path : List Char} (nonempty : path ≠ []) : withSlash path ≠ [] := by
  unfold withSlash
  split
  · exact nonempty
  · exact List.append_ne_nil_of_right_ne_nil path (List.cons_ne_nil _ _)

theorem null_mem_withSlash_iff {path : List Char} :
    '\x00' ∈ withSlash path ↔ '\x00' ∈ path := by
  unfold withSlash
  split
  · rfl
  · simp

theorem null_notMem_clientSuffixes {e : UInt8} {suffix : List Char}
    (member : suffix ∈ clientSuffixes e) : '\x00' ∉ suffix := by
  simp only [clientSuffixes, List.mem_append, List.mem_ite_nil_right, List.mem_singleton] at member
  obtain (⟨-, rfl⟩ | ⟨-, rfl⟩) | ⟨-, rfl⟩ := member <;> decide

theorem null_notMem_serverSuffixes {e : UInt8} {suffix : List Char}
    (member : suffix ∈ serverSuffixes e) : '\x00' ∉ suffix := by
  simp only [serverSuffixes, List.mem_append, List.mem_ite_nil_right, List.mem_singleton] at member
  obtain (⟨-, rfl⟩ | ⟨-, rfl⟩) | ⟨-, rfl⟩ := member <;> decide

theorem filesIn_iff {names : TraceNames} {path : List Char} (nonempty : path ≠ []) :
    FilesIn names (withSlash path) (withSlash path) ↔ Uncut names path := by
  have named : (withSlash path).length ≠ 0 := fun nothing =>
    withSlash_ne_nil nonempty (List.length_eq_zero_iff.mp nothing)
  have name : traceName names.cwd (withSlash path) names.flow = withSlash path ++ names.flow :=
    if_neg named
  have util : openUtilFile names.cwd (withSlash path) names.topoId =
      cStr (withSlash path ++ names.topoId ++ "_util.txt".toList) := if_neg named
  constructor
  · intro files
    -- the file of the congestion window shows whether the folder and the flow are whole
    have opened := files.client enableCwnd
    rw [logEnable, name] at opened
    have whole : '\x00' ∉ withSlash path ++ names.flow ++ "_cwnd.txt".toList :=
      cStr_eq_self_iff.mp (List.cons.inj opened).1
    have wholeUtil := cStr_eq_self_iff.mp (util.symm.trans files.util)
    simp only [List.mem_append, not_or, null_mem_withSlash_iff] at whole wholeUtil
    exact ⟨whole.1.1, whole.1.2, wholeUtil.1.2⟩
  · intro uncut
    have folder : '\x00' ∉ withSlash path := null_mem_withSlash_iff.not.mpr uncut.path
    have whole (flow suffix : List Char) (flowUncut : '\x00' ∉ flow)
        (suffixUncut : '\x00' ∉ suffix) :
        cStr (withSlash path ++ flow ++ suffix) = withSlash path ++ flow ++ suffix :=
      cStr_eq_self_iff.mpr (by simp [folder, flowUncut, suffixUncut])
    refine ⟨fun e => ?_, fun e => ?_, util.trans (whole _ _ uncut.topoId (by decide))⟩
    · rw [logEnable, name]
      exact List.map_congr_left fun suffix member =>
        whole _ _ uncut.flow (null_notMem_clientSuffixes member)
    · rw [serverTraceFiles, name]
      exact List.map_congr_left fun suffix member =>
        whole _ _ uncut.flow (null_notMem_serverSuffixes member)

theorem followsLastPath_iff {names : TraceNames} {paths : List (List Char)} :
    FollowsLastPath names paths ↔
      afterCalls paths = .ok (withSlash (lastPath paths)) ∧
        (lastPath paths ≠ [] → Uncut names (lastPath paths)) := by
  constructor
  · rintro ⟨folder, result, rfl, files⟩
    exact ⟨result, fun nonempty => (filesIn_iff nonempty).mp (files nonempty)⟩
  · rintro ⟨result, uncut⟩
    exact ⟨_, result, rfl, fun nonempty => (filesIn_iff nonempty).mpr (uncut nonempty)⟩

theorem charAt_eq (text : List Char) (position : Nat) :
    charAt text position =
      if position ≤ text.length then .ok (text[position]?.getD '\x00') else .error .outOfRange := by
  unfold charAt
  split
  · rename_i character found
    obtain ⟨inside, -⟩ := List.getElem?_eq_some_iff.mp found
    rw [if_pos (le_of_lt inside), found]
    rfl
  · rename_i missing
    have atLeast := List.getElem?_eq_none_iff.mp missing
    by_cases atEnd : position = text.length
    · rw [if_pos atEnd, if_pos (le_of_eq atEnd), missing]
      rfl
    · rw [if_neg atEnd, if_neg (by omega)]

/-- One call leaves the new path with its slash exactly if it suits the old folder. -/
theorem setQuicTraceFolder_iff (folder path : List Char) :
    setQuicTraceFolder folder path = .ok (withSlash path) ↔ Suits folder path := by
  unfold setQuicTraceFolder Suits
  by_cases empty : pathLen path = 0
  · rw [if_neg (not_not_intro empty), if_pos empty, Except.ok.injEq, eq_comm,
      withSlash_eq_self_iff]
  · have nonempty : path ≠ [] := by
      rintro rfl
      exact empty rfl
    rw [if_pos empty, if_neg empty, charAt_eq]
    by_cases inside : lastPosition path ≤ folder.length
    · rw [if_pos inside]
      dsimp only
      by_cases slash : folder[lastPosition path]? = some '/'
      · rw [slash, Option.getD_some, if_neg (not_not_intro rfl), Except.ok.injEq, eq_comm,
          withSlash_eq_self_iff]
        simp [nonempty, inside]
      · have other : folder[lastPosition path]?.getD '\x00' ≠ '/' := by
          cases found : folder[lastPosition path]? with
          | none => decide
          | some character =>
              rintro rfl
              exact slash found
        rw [if_pos other, Except.ok.injEq, eq_comm, withSlash_eq_append_iff]
        simp [nonempty, inside, slash]
    · rw [if_neg inside]
      exact iff_of_false (fun impossible => nomatch impossible) fun both => inside both.1

/-! ## Every history -/

def callWith (state : Except FolderFault (List Char) × List Char) (path : List Char) :
    Except FolderFault (List Char) × List Char :=
  (state.1 >>= fun folder => setQuicTraceFolder folder path, path)

theorem foldl_callWith (paths : List (List Char)) :
    paths.foldl callWith (.ok [], []) = (afterCalls paths, lastPath paths) := by
  induction paths using List.reverseRecOn with
  | nil => rfl
  | append_singleton before path inductionHypothesis =>
      have folder : afterCalls (before ++ [path]) =
          afterCalls before >>= fun folder => setQuicTraceFolder folder path := by
        simp only [afterCalls, List.foldlM_append, List.foldlM_cons, List.foldlM_nil, bind_pure]
      have last : lastPath (before ++ [path]) = path := by simp [lastPath]
      rw [List.foldl_append, inductionHypothesis, folder, last]
      rfl

/-- The folder is the last path with its slash and holds the files, after every
call of a history, exactly if every path suits the folder that the path before
it names and no file name is cut. -/
theorem folder_follows_last_path_iff (names : TraceNames) (paths : List (List Char)) :
    (∀ calls, calls <+: paths → FollowsLastPath names calls) ↔
      ∀ calls path, calls ++ [path] <+: paths →
        Suits (withSlash (lastPath calls)) path ∧ (path ≠ [] → Uncut names path) := by
  have rule := @forall_prefix_iff _ _ callWith (.ok [], []) paths
    (fun state => state.1 = .ok (withSlash state.2) ∧ (state.2 ≠ [] → Uncut names state.2))
    (fun state path => Suits (withSlash state.2) path ∧ (path ≠ [] → Uncut names path))
    ⟨rfl, fun nonempty => absurd rfl nonempty⟩ fun before path _ now => by
      rw [callWith, now.1, bind_ok, setQuicTraceFolder_iff]
  simp only [foldl_callWith] at rule
  simpa only [followsLastPath_iff] using rule

/-- The first call reads beyond the end of the empty string.  After a folder of
one letter, a path of two letters gets no slash and the path `/` gets a second. -/
theorem old_folder_decides :
    afterCalls ["traces/bbr/".toList] = .error .outOfRange ∧
      afterCalls ["a".toList, "xy".toList] = .ok "xy".toList ∧
      afterCalls ["a".toList, "/".toList] = .ok "//".toList ∧
      withSlash "xy".toList = "xy/".toList ∧ withSlash "/".toList = "/".toList := by
  decide

end Ns3Quic.Trace
