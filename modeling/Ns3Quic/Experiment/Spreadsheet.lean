import Ns3Quic.Lib.FirstPlaces
import Ns3Quic.Lib.Fold
import Ns3Quic.Lib.SeparatedNumbers
import Mathlib.Algebra.Ring.Nat
import Mathlib.Data.List.Infix
import Mathlib.Data.List.Nodup

/-!
# The spreadsheet of averages

`data_to_execel.py` averages the trace file of every trial of an experiment and
writes a row for each configuration, with a column for each trial.  The averages
of a configuration are collected in a list, without the trials that have no
data, and the column of an average is found by looking it up in the list.

The script is run with the delays as its only standard.  Files are given by
their lines, and lines by the columns between blanks.
-/

namespace Ns3Quic.Experiment

open FirstPlaces LoopRules SeparatedNumbers

/-- What the script uses of the numbers of Python.  Numbers that compare equal
are one value. -/
structure PythonFloat (Value : Type) where
  /-- `float(text)`; `none` is a `ValueError`. -/
  parse : String → Option Value
  /-- `value < 3000000`. -/
  below : Value → Bool
  /-- `sum(values) / len(values)`. -/
  mean : List Value → Value
  /-- The writer of the spreadsheet raises an exception for the others. -/
  finite : Value → Bool

inductive ScriptFault where
  | valueError (text : String)
  deriving DecidableEq, Repr

/-! ## The configurations -/

inductive Protocol where
  | quic
  | tcp
  deriving DecidableEq, Repr

def Protocol.text : Protocol → String
  | .quic => "QUIC"
  | .tcp => "TCP"

inductive Cca where
  | bbr
  | cubic
  | reno
  | vegas
  deriving DecidableEq, Repr

def Cca.text : Cca → String
  | .bbr => "bbr"
  | .cubic => "cubic"
  | .reno => "reno"
  | .vegas => "vegas"

inductive Measure where
  | goodput
  | owd
  deriving DecidableEq, Repr

def Measure.text : Measure → String
  | .goodput => "goodput"
  | .owd => "owd"

structure Configuration where
  count : Nat
  pro : Protocol
  cc : Cca
  re : Measure
  deriving DecidableEq, Repr

def countDelay : List Nat := [0, 50, 100, 150, 200, 250]

def protocol : List Protocol := [.quic, .tcp]

def cca : List Cca := [.bbr, .cubic, .reno, .vegas]

def results : Protocol → List Measure
  | .quic => [.goodput]
  | .tcp => [.goodput]

def numbers : List Nat := [1, 2, 3, 4, 5]

/-- The order in which the names are entered into the dictionary. -/
def configurations : List Configuration :=
  countDelay.flatMap fun count => protocol.flatMap fun pro => cca.flatMap fun cc =>
    (results pro).map fun re => ⟨count, pro, cc, re⟩

/-- The order in which the files are read. -/
def trials : List (Configuration × Nat) :=
  countDelay.flatMap fun count => protocol.flatMap fun pro => cca.flatMap fun cc =>
    numbers.flatMap fun number => (results pro).map fun re => (⟨count, pro, cc, re⟩, number)

namespace Configuration

def name (configuration : Configuration) : String :=
  "delay_" ++ toString configuration.count ++ "_" ++ configuration.pro.text ++ "_" ++
    configuration.cc.text ++ "_" ++ configuration.re.text

def filePath (configuration : Configuration) (number : Nat) : String :=
  "/delay/" ++ toString configuration.count ++ "/" ++ configuration.pro.text ++ "/" ++
    configuration.cc.text ++ "/" ++ toString number ++ "/" ++ configuration.re.text ++ ".txt"

end Configuration

/-! ## Reading the files -/

section Reading

variable {Value : Type} (float : PythonFloat Value)

def toFloat (text : String) : Except ScriptFault Value :=
  match float.parse text with
  | none => .error (.valueError text)
  | some value => .ok value

def lineValue (configuration : Configuration) (cols : List String) :
    Except ScriptFault (Option Value) :=
  match configuration.pro with
  | .quic =>
      if configuration.re = .owd then
        match cols with
        | [_, _, col, _] => (toFloat float col).map some
        | _ => .ok none
      else
        match cols with
        | [_, col] => (toFloat float col).map some
        | _ => .ok none
  | .tcp =>
      match cols with
      | [_, col] =>
          (toFloat float col).map fun value => if float.below value then some value else none
      | _ => .ok none

def readValues (configuration : Configuration) :
    List (List String) → Except ScriptFault (List Value)
  | [] => .ok []
  | cols :: rest => do
      let value ← lineValue float configuration cols
      let values ← readValues configuration rest
      .ok (value.toList ++ values)

/-- The average of a trial, unless its file is missing, empty or without usable
lines. -/
def trialAverage (files : String → Option (List (List String))) (trial : Configuration × Nat) :
    Except ScriptFault (Option Value) :=
  match files (trial.1.filePath trial.2) with
  | none => .ok none
  | some lines =>
      if lines.isEmpty then .ok none
      else do
        let temp ← readValues float trial.1 lines
        if temp.isEmpty then .ok none else .ok (some (float.mean temp))

def appendTo (txtNameList : List (String × List Value)) (name : String) (average : Value) :
    List (String × List Value) :=
  txtNameList.map fun entry =>
    if entry.1 = name then (entry.1, entry.2 ++ [average]) else entry

def collectTrial (files : String → Option (List (List String)))
    (txtNameList : List (String × List Value)) (trial : Configuration × Nat) :
    Except ScriptFault (List (String × List Value)) := do
  match ← trialAverage float files trial with
  | none => .ok txtNameList
  | some average => .ok (appendTo txtNameList trial.1.name average)

def collect (files : String → Option (List (List String))) :
    Except ScriptFault (List (String × List Value)) :=
  trials.foldlM (collectTrial float files) (configurations.map fun entry => (entry.name, []))

end Reading

/-! ## Writing the sheet -/

inductive Cell (Value : Type) where
  | text (text : String)
  | number (value : Value)
  deriving DecidableEq, Repr

abbrev Sheet (Value : Type) := Nat → Nat → Option (Cell Value)

def Sheet.write {Value : Type} (sheet : Sheet Value) (row col : Nat) (cell : Cell Value) :
    Sheet Value :=
  fun otherRow otherCol =>
    if otherRow = row ∧ otherCol = col then some cell else sheet otherRow otherCol

def headerList : List String := ["name", "1", "2", "3", "4", "5"]

def headed (Value : Type) : Sheet Value :=
  headerList.foldl (fun sheet header => sheet.write 0 (headerList.idxOf header) (.text header))
    fun _ _ => none

section Writing

variable {Value : Type} [DecidableEq Value] (float : PythonFloat Value)

/-- The loop over the averages of a row.  The result says whether it came to its
end: an exception leaves the cells that were written before. -/
def writeItems (row : Nat) (txtList : List Value) : List Value → Sheet Value → Sheet Value × Bool
  | [], sheet => (sheet, true)
  | item :: rest, sheet =>
      if float.finite item then
        writeItems row txtList rest (sheet.write row (txtList.idxOf item + 1) (.number item))
      else
        (sheet, false)

/-- `name.find(standard) != -1`. -/
def mentions (name standard : String) : Bool := decide (standard.toList <:+: name.toList)

/-- One round of the loop over the dictionary, with `row_delay`; after an
exception the next round writes into the same row. -/
def writeEntry (state : Sheet Value × Nat) (entry : String × List Value) : Sheet Value × Nat :=
  if mentions entry.1 "delay" then
    let named := state.1.write state.2 0 (.text entry.1)
    let written := writeItems float state.2 entry.2 entry.2 named
    (written.1, if written.2 then state.2 + 1 else state.2)
  else
    state

def script (files : String → Option (List (List String))) : Except ScriptFault (Sheet Value) := do
  let txtNameList ← collect float files
  .ok (txtNameList.foldl (writeEntry float) (headed Value, 1)).1

end Writing

/-! ## What the rows should hold -/

section Rows

variable {Value : Type} (float : PythonFloat Value)
  (files : String → Option (List (List String)))

/-- The row of a configuration holds the average of every trial in the column
that has the number of the trial in its header, and nothing for a trial without
data. -/
def RowHolds (sheet : Sheet Value) (configuration : Configuration) : Prop :=
  ∃ row, 0 < row ∧ sheet row 0 = some (.text configuration.name) ∧
    ∀ number ∈ numbers, ∃ column average,
      sheet 0 column = some (.text (toString number)) ∧
      trialAverage float files (configuration, number) = .ok average ∧
      sheet row column = average.map .number

/-- The columns to be averaged are numbers and the averages finite, no trial is
without data before another, and no two averages are equal. -/
structure Orderly (configuration : Configuration) : Prop where
  numeric : ∀ number ∈ numbers, ∃ average,
    trialAverage float files (configuration, number) = .ok average
  finite : ∀ number ∈ numbers, ∀ average,
    trialAverage float files (configuration, number) = .ok (some average) →
      float.finite average = true
  distinct : ∀ earlier ∈ numbers, ∀ later ∈ numbers, earlier < later → ∀ average,
    trialAverage float files (configuration, later) = .ok (some average) →
      ∃ other, trialAverage float files (configuration, earlier) = .ok (some other) ∧
        other ≠ average

def averageOf (trial : Configuration × Nat) : Option Value :=
  match trialAverage float files trial with
  | .ok average => average
  | .error _ => none

def averages (configuration : Configuration) : List Value :=
  numbers.filterMap fun number => averageOf float files (configuration, number)

variable {float files}

theorem averageOf_eq_some_iff {trial : Configuration × Nat} {average : Value} :
    averageOf float files trial = some average ↔
      trialAverage float files trial = .ok (some average) := by
  unfold averageOf
  cases trialAverage float files trial <;> simp

theorem averageOf_of_ok {trial : Configuration × Nat} {average : Option Value}
    (read : trialAverage float files trial = .ok average) :
    averageOf float files trial = average := by
  rw [averageOf, read]

/-! ### The dictionary -/

def labels (pro : Protocol) (cc : Cca) (re : Measure) : List Char :=
  pro.text.toList ++ '_' :: (cc.text.toList ++ '_' :: re.text.toList)

theorem Protocol.text_injective {first second : Protocol}
    (same : first.text.toList = second.text.toList) : first = second := by
  cases first <;> cases second <;> first | rfl | exact absurd same (by decide)

theorem Cca.text_injective {first second : Cca}
    (same : first.text.toList = second.text.toList) : first = second := by
  cases first <;> cases second <;> first | rfl | exact absurd same (by decide)

theorem Measure.text_injective {first second : Measure}
    (same : first.text.toList = second.text.toList) : first = second := by
  cases first <;> cases second <;> first | rfl | exact absurd same (by decide)

theorem Protocol.text_letters (pro : Protocol) :
    ∀ character ∈ pro.text.toList, (character != '_') = true := by
  rw [← List.all_eq_true]
  cases pro <;> rfl

theorem Cca.text_letters (cc : Cca) :
    ∀ character ∈ cc.text.toList, (character != '_') = true := by
  rw [← List.all_eq_true]
  cases cc <;> rfl

theorem labels_injective {pro otherPro : Protocol} {cc otherCc : Cca} {re otherRe : Measure}
    (same : labels pro cc re = labels otherPro otherCc otherRe) :
    pro = otherPro ∧ cc = otherCc ∧ re = otherRe := by
  obtain ⟨samePro, rest⟩ :=
    append_cons_inj (by decide) pro.text_letters otherPro.text_letters same
  obtain ⟨sameCc, sameRe⟩ := append_cons_inj (by decide) cc.text_letters otherCc.text_letters rest
  exact ⟨Protocol.text_injective samePro, Cca.text_injective sameCc,
    Measure.text_injective sameRe⟩

theorem toList_name (configuration : Configuration) :
    configuration.name.toList = "delay_".toList ++ (Nat.toDigits 10 configuration.count ++
      '_' :: labels configuration.pro configuration.cc configuration.re) := by
  have digits : (toString configuration.count).toList = Nat.toDigits 10 configuration.count :=
    Nat.toList_repr
  have separator : "_".toList = ['_'] := rfl
  delta Configuration.name
  simp only [labels, String.toList_append, digits, separator, List.append_assoc,
    List.cons_append, List.nil_append]

theorem name_injective : Function.Injective Configuration.name := by
  intro first second same
  have texts := congrArg String.toList same
  rw [toList_name, toList_name] at texts
  obtain ⟨count, rest⟩ := toDigits_append_cons_inj (by decide) (List.append_cancel_left texts)
  obtain ⟨pro, cc, re⟩ := labels_injective rest
  cases first
  cases second
  simp_all

theorem mentions_delay (configuration : Configuration) :
    mentions configuration.name "delay" = true := by
  rw [mentions, decide_eq_true_iff, toList_name]
  exact ⟨[], '_' :: (_ ++ '_' :: _), rfl⟩

theorem trials_eq :
    trials = configurations.flatMap fun configuration =>
      numbers.map fun number => (configuration, number) := by
  decide +kernel

theorem mem_trials {configuration : Configuration} {number : Nat} :
    (configuration, number) ∈ trials ↔ configuration ∈ configurations ∧ number ∈ numbers := by
  rw [trials_eq, List.mem_flatMap]
  constructor
  · rintro ⟨other, member, inside⟩
    obtain ⟨_, counted, same⟩ := List.mem_map.mp inside
    cases same
    exact ⟨member, counted⟩
  · rintro ⟨member, counted⟩
    exact ⟨configuration, member, List.mem_map.mpr ⟨number, counted, rfl⟩⟩

theorem configurations_nodup : configurations.Nodup := by decide +kernel

theorem flatMap_ite_of_mem {Entry : Type} {known : List Configuration} (nodup : known.Nodup)
    {configuration : Configuration} (member : configuration ∈ known)
    (entries : Configuration → List Entry) :
    (known.flatMap fun other => if other = configuration then entries other else []) =
      entries configuration := by
  obtain ⟨front, back, rfl⟩ := List.append_of_mem member
  have nothing (others : List Configuration) (absent : configuration ∉ others) :
      (others.flatMap fun other => if other = configuration then entries other else []) = [] := by
    rw [List.flatMap_eq_nil_iff]
    intro other among
    exact if_neg fun same : other = configuration => absent (same ▸ among)
  have apart := List.nodup_middle.mp nodup
  rw [List.nodup_cons, List.mem_append, not_or] at apart
  rw [List.flatMap_append, List.flatMap_cons, nothing front apart.1.1, nothing back apart.1.2,
    if_pos rfl, List.nil_append, List.append_nil]

theorem filter_trials {configuration : Configuration} (member : configuration ∈ configurations) :
    trials.filter (·.1 = configuration) = numbers.map fun number => (configuration, number) := by
  have own (other : Configuration) :
      (numbers.map fun number => (other, number)).filter (·.1 = configuration) =
        if other = configuration then numbers.map fun number => (other, number) else [] := by
    by_cases same : other = configuration
    · rw [if_pos same, List.filter_eq_self]
      simp [same]
    · rw [if_neg same, List.filter_eq_nil_iff]
      simp [same]
  rw [trials_eq, List.filter_flatMap, funext own]
  exact flatMap_ite_of_mem configurations_nodup member _

theorem foldl_appendTo (averageOf : Configuration × Nat → Option Value)
    (read : List (Configuration × Nat)) (txtNameList : List (String × List Value)) :
    read.foldl (fun txtNameList trial =>
        match averageOf trial with
        | none => txtNameList
        | some average => appendTo txtNameList trial.1.name average) txtNameList =
      txtNameList.map fun entry =>
        (entry.1, entry.2 ++ (read.filter (·.1.name = entry.1)).filterMap averageOf) := by
  induction read generalizing txtNameList with
  | nil => simp
  | cons trial rest inductionHypothesis =>
      rw [List.foldl_cons, inductionHypothesis]
      cases found : averageOf trial with
      | none =>
          refine List.map_congr_left fun entry _ => ?_
          by_cases named : trial.1.name = entry.1 <;> simp [named, found]
      | some average =>
          unfold appendTo
          rw [List.map_map]
          refine List.map_congr_left fun entry _ => ?_
          by_cases named : trial.1.name = entry.1
          · simp [← named, found]
          · simp [named, Ne.symm named]

/-- The script comes to the writing exactly if all columns are numbers, and has
then collected the averages of every configuration. -/
theorem collect_eq_ok_iff {txtNameList : List (String × List Value)} :
    collect float files = .ok txtNameList ↔
      (∀ trial ∈ trials, ∃ average, trialAverage float files trial = .ok average) ∧
        configurations.map (fun entry => (entry.name, averages float files entry)) =
          txtNameList := by
  have success (txtNameList : List (String × List Value)) (trial : Configuration × Nat)
      (read : ∃ average, trialAverage float files trial = .ok average) :
      collectTrial float files txtNameList trial =
        .ok (match averageOf float files trial with
          | none => txtNameList
          | some average => appendTo txtNameList trial.1.name average) := by
    obtain ⟨average, read⟩ := read
    rw [collectTrial, averageOf, read, bind_ok]
    cases average <;> rfl
  have only (txtNameList : List (String × List Value)) (trial : Configuration × Nat)
      (after : List (String × List Value))
      (result : collectTrial float files txtNameList trial = .ok after) :
      ∃ average, trialAverage float files trial = .ok average := by
    obtain ⟨average, read, -⟩ := bind_eq_ok.mp result
    exact ⟨average, read⟩
  refine (foldlM_eq_ok_iff success only trials).trans (and_congr_right fun _ => ?_)
  rw [foldl_appendTo, List.map_map]
  refine iff_of_eq (congrArg (· = txtNameList) (List.map_congr_left fun entry member => ?_))
  have own : trials.filter (fun trial => trial.1.name = entry.name) =
      numbers.map fun number => (entry, number) := by
    rw [← filter_trials member]
    refine List.filter_congr fun trial _ => ?_
    rw [decide_eq_decide]
    exact name_injective.eq_iff
  simp only [Function.comp_apply, own, List.nil_append, List.filterMap_map, averages]

end Rows

/-! ### The cells -/

section Cells

variable {Value : Type} {float : PythonFloat Value}

/-- Items of a list are written to the columns where they are looked up, after
the columns that come first. -/
theorem foldl_write_idxOf {Item : Type} [DecidableEq Item] (row before : Nat)
    (cell : Item → Cell Value) {all items : List Item} (listed : items ⊆ all)
    (sheet : Sheet Value) (otherRow col : Nat) :
    items.foldl (fun sheet item => sheet.write row (all.idxOf item + before) (cell item)) sheet
        otherRow col =
      if otherRow = row ∧ ∃ item ∈ items, all.idxOf item + before = col then
        all[col - before]?.map cell
      else sheet otherRow col := by
  induction items generalizing sheet with
  | nil => simp
  | cons item rest inductionHypothesis =>
      obtain ⟨itemListed, restListed⟩ := List.cons_subset.mp listed
      rw [List.foldl_cons, inductionHypothesis restListed]
      by_cases later : otherRow = row ∧ ∃ item ∈ rest, all.idxOf item + before = col
      · obtain ⟨sameRow, other, inRest, found⟩ := later
        rw [if_pos ⟨sameRow, other, inRest, found⟩,
          if_pos ⟨sameRow, other, List.mem_cons_of_mem item inRest, found⟩]
      · rw [if_neg later, Sheet.write]
        by_cases here : otherRow = row ∧ col = all.idxOf item + before
        · obtain ⟨rfl, rfl⟩ := here
          rw [if_pos ⟨rfl, rfl⟩, if_pos ⟨rfl, item, List.mem_cons_self, rfl⟩,
            Nat.add_sub_cancel, List.getElem?_idxOf itemListed]
          rfl
        · rw [if_neg here, if_neg]
          rintro ⟨sameRow, other, member, found⟩
          rcases List.mem_cons.mp member with rfl | inRest
          · exact here ⟨sameRow, found.symm⟩
          · exact later ⟨sameRow, other, inRest, found⟩

theorem headed_eq (row col : Nat) :
    headed Value row col = if row = 0 then (shown headerList col).map .text else none := by
  refine (foldl_write_idxOf 0 0 .text (List.Subset.refl headerList) _ row col).trans ?_
  rw [shown_eq_ite]
  by_cases first : row = 0
  · simp only [first, true_and, if_true, Nat.add_zero, Nat.sub_zero]
    split <;> rfl
  · simp only [first, false_and, if_false]

theorem headed_eq_iff {column number : Nat} (counted : number ∈ numbers) :
    headed Value 0 column = some (.text (toString number)) ↔ column = number := by
  have own : ∀ number ∈ numbers, headerList[number]? = some (toString number) ∧
      headerList.idxOf (toString number) = number := by decide +kernel
  obtain ⟨found, first⟩ := own number counted
  rw [headed_eq, if_pos rfl, Option.map_eq_some_iff]
  constructor
  · rintro ⟨text, header, same⟩
    cases same
    exact (shown_eq_some_iff.mp header).2.symm.trans first
  · rintro rfl
    exact ⟨toString column, shown_eq_some_iff.mpr ⟨found, first⟩, rfl⟩

def NumbersFinite (float : PythonFloat Value) (sheet : Sheet Value) : Prop :=
  ∀ row col value, sheet row col = some (.number value) → float.finite value = true

theorem numbersFinite_headed : NumbersFinite float (headed Value) := by
  intro row col value found
  rw [headed_eq] at found
  split at found
  · obtain ⟨_, _, impossible⟩ := Option.map_eq_some_iff.mp found
    cases impossible
  · cases found

theorem NumbersFinite.write {sheet : Sheet Value} (finite : NumbersFinite float sheet)
    {row col : Nat} {cell : Cell Value}
    (written : ∀ value, cell = .number value → float.finite value = true) :
    NumbersFinite float (sheet.write row col cell) := by
  intro otherRow otherCol value found
  unfold Sheet.write at found
  split at found
  · exact written value (Option.some.inj found)
  · exact finite otherRow otherCol value found

variable [DecidableEq Value]

theorem NumbersFinite.after_items {row : Nat} {txtList items : List Value} {sheet : Sheet Value}
    (finite : NumbersFinite float sheet) :
    NumbersFinite float (writeItems float row txtList items sheet).1 := by
  induction items generalizing sheet with
  | nil => exact finite
  | cons item rest inductionHypothesis =>
      unfold writeItems
      split
      next itemFinite =>
        refine inductionHypothesis (finite.write ?_)
        rintro value ⟨⟩
        exact itemFinite
      next => exact finite

theorem NumbersFinite.after_entry {state : Sheet Value × Nat} (finite : NumbersFinite float state.1)
    (entry : String × List Value) : NumbersFinite float (writeEntry float state entry).1 := by
  unfold writeEntry
  split
  · exact NumbersFinite.after_items (finite.write (by rintro value ⟨⟩))
  · exact finite

theorem NumbersFinite.after_entries (entries : List (String × List Value))
    {state : Sheet Value × Nat} (finite : NumbersFinite float state.1) :
    NumbersFinite float (entries.foldl (writeEntry float) state).1 := by
  induction entries generalizing state with
  | nil => exact finite
  | cons entry rest inductionHypothesis => exact inductionHypothesis (finite.after_entry entry)

theorem writeItems_of_finite (row : Nat) (txtList : List Value) {items : List Value}
    (finite : ∀ item ∈ items, float.finite item = true) (sheet : Sheet Value) :
    writeItems float row txtList items sheet =
      (items.foldl (fun sheet item =>
        sheet.write row (txtList.idxOf item + 1) (.number item)) sheet, true) := by
  induction items generalizing sheet with
  | nil => rfl
  | cons item rest inductionHypothesis =>
      obtain ⟨itemFinite, restFinite⟩ := List.forall_mem_cons.mp finite
      rw [writeItems, if_pos itemFinite, inductionHypothesis restFinite, List.foldl_cons]

def rowOf (entry : String × List Value) : Nat → Option (Cell Value)
  | 0 => some (.text entry.1)
  | place + 1 => (shown entry.2 place).map .number

structure Writable (float : PythonFloat Value) (entry : String × List Value) : Prop where
  delay : mentions entry.1 "delay" = true
  finite : ∀ item ∈ entry.2, float.finite item = true

theorem Writable.writeEntry_eq {state : Sheet Value × Nat} {entry : String × List Value}
    (writable : Writable float entry) (blank : ∀ col, state.1 state.2 col = none) :
    writeEntry float state entry =
      (fun row col => if row = state.2 then rowOf entry col else state.1 row col, state.2 + 1) := by
  rw [writeEntry, if_pos writable.delay]
  dsimp only
  rw [writeItems_of_finite state.2 entry.2 writable.finite]
  refine Prod.ext (funext fun row => funext fun col => ?_) rfl
  refine (foldl_write_idxOf state.2 1 .number (List.Subset.refl entry.2) _ row col).trans ?_
  rw [Sheet.write]
  by_cases same : row = state.2
  · subst same
    cases col with
    | zero => simp [rowOf]
    | succ place =>
        simp only [true_and, Nat.add_right_cancel_iff, Nat.add_sub_cancel, rowOf, shown_eq_ite,
          blank, if_true]
        split <;> rfl
  · simp [same]

theorem foldl_writeEntry {entries : List (String × List Value)}
    (writable : ∀ entry ∈ entries, Writable float entry) {state : Sheet Value × Nat}
    (blank : ∀ row, state.2 ≤ row → ∀ col, state.1 row col = none) (row col : Nat) :
    (entries.foldl (writeEntry float) state).1 row col =
      if row < state.2 then state.1 row col
      else entries[row - state.2]?.bind fun entry => rowOf entry col := by
  induction entries generalizing state with
  | nil =>
      split
      next => rfl
      next below => exact blank row (Nat.le_of_not_lt below) col
  | cons entry rest inductionHypothesis =>
      obtain ⟨first, others⟩ := List.forall_mem_cons.mp writable
      rw [List.foldl_cons, first.writeEntry_eq (blank state.2 (Nat.le_refl _)),
        inductionHypothesis others] <;> dsimp only
      · rcases Nat.lt_trichotomy row state.2 with above | same | below
        · rw [if_pos (Nat.lt_succ_of_lt above), if_neg (Nat.ne_of_lt above), if_pos above]
        · rw [if_pos (by omega), if_pos same, if_neg (by omega),
            show row - state.2 = 0 by omega]
          rfl
        · rw [if_neg (by omega), if_neg (by omega),
            show row - state.2 = (row - (state.2 + 1)) + 1 by omega, List.getElem?_cons_succ]
      · intro otherRow lower otherCol
        rw [if_neg (by omega)]
        exact blank otherRow (by omega) otherCol

end Cells

/-! ### The rows of the script -/

section Script

variable {Value : Type} {float : PythonFloat Value}
  {files : String → Option (List (List String))}

def entryOf (float : PythonFloat Value) (files : String → Option (List (List String)))
    (configuration : Configuration) : String × List Value :=
  (configuration.name, averages float files configuration)

theorem getElem?_map_numbers {Entry : Type} {entryAt : Nat → Entry} {place : Nat} {entry : Entry} :
    (numbers.map entryAt)[place]? = some entry ↔
      place + 1 ∈ numbers ∧ entryAt (place + 1) = entry := by
  rcases place with _ | _ | _ | _ | _ | place <;> simp [numbers]

theorem eq_succ_of_mem_numbers {number : Nat} (counted : number ∈ numbers) :
    ∃ place, number = place + 1 := by
  have positive : ∀ number ∈ numbers, 0 < number := by decide
  exact ⟨number - 1, (Nat.sub_add_cancel (positive number counted)).symm⟩

theorem succ_mem_numbers {earlier later : Nat} (before : earlier ≤ later)
    (counted : later + 1 ∈ numbers) : earlier + 1 ∈ numbers := by
  simp only [numbers, List.mem_cons, List.not_mem_nil, or_false] at counted ⊢
  omega

variable {configuration : Configuration}

theorem finite_averages (finite : ∀ number ∈ numbers, ∀ average,
      trialAverage float files (configuration, number) = .ok (some average) →
        float.finite average = true) :
    ∀ average ∈ averages float files configuration, float.finite average = true := by
  intro average collected
  obtain ⟨number, counted, found⟩ := List.mem_filterMap.mp collected
  exact finite number counted average (averageOf_eq_some_iff.mp found)

variable [DecidableEq Value]

theorem script_eq_ok_iff {sheet : Sheet Value} :
    script float files = .ok sheet ↔
      (∀ trial ∈ trials, ∃ average, trialAverage float files trial = .ok average) ∧
        ((configurations.map (entryOf float files)).foldl (writeEntry float) (headed Value, 1)).1 =
          sheet := by
  rw [script, bind_eq_ok]
  constructor
  · rintro ⟨txtNameList, collected, written⟩
    obtain ⟨numeric, rfl⟩ := collect_eq_ok_iff.mp collected
    exact ⟨numeric, Except.ok.inj written⟩
  · rintro ⟨numeric, written⟩
    exact ⟨_, collect_eq_ok_iff.mpr ⟨numeric, rfl⟩, congrArg Except.ok written⟩

/-- The layout of the averages shows each at the place of its trial exactly if
no trial is without data before another and no two averages are equal. -/
theorem shown_averages_iff :
    (∀ number ∈ numbers, shown (averages float files configuration) (number - 1) =
      averageOf float files (configuration, number)) ↔
    ∀ earlier ∈ numbers, ∀ later ∈ numbers, earlier < later → ∀ average,
      trialAverage float files (configuration, later) = .ok (some average) →
        ∃ other, trialAverage float files (configuration, earlier) = .ok (some other) ∧
          other ≠ average := by
  have entries : averages float files configuration = (numbers.map fun number =>
      averageOf float files (configuration, number)).filterMap id := by
    rw [List.filterMap_map]
    rfl
  have general := shown_filterMap_iff
    (numbers.map fun number => averageOf float files (configuration, number))
  simp only [getElem?_map_numbers, ← entries, averageOf_eq_some_iff] at general
  constructor
  · intro kept earlier earlierCounted later laterCounted before average read
    obtain ⟨place, rfl⟩ := eq_succ_of_mem_numbers earlierCounted
    obtain ⟨otherPlace, rfl⟩ := eq_succ_of_mem_numbers laterCounted
    obtain ⟨other, ⟨-, otherRead⟩, differs⟩ := general.mp
      (fun place entry found => (kept (place + 1) found.1).trans found.2) place otherPlace
      (Nat.lt_of_succ_lt_succ before) average ⟨laterCounted, read⟩
    exact ⟨other, otherRead, differs⟩
  · intro distinct number counted
    obtain ⟨place, rfl⟩ := eq_succ_of_mem_numbers counted
    refine general.mpr ?_ place _ ⟨counted, rfl⟩
    rintro earlier later before average ⟨laterCounted, read⟩
    have earlierCounted : earlier + 1 ∈ numbers := succ_mem_numbers (by omega) laterCounted
    obtain ⟨other, otherRead, differs⟩ :=
      distinct _ earlierCounted _ laterCounted (Nat.succ_lt_succ before) average read
    exact ⟨other, ⟨earlierCounted, otherRead⟩, differs⟩

variable {sheet : Sheet Value}

theorem script_cells (written : script float files = .ok sheet)
    (finite : ∀ configuration ∈ configurations, ∀ average ∈ averages float files configuration,
      float.finite average = true) :
    (∀ col, sheet 0 col = headed Value 0 col) ∧
      ∀ row col, sheet (row + 1) col =
        configurations[row]?.bind fun other => rowOf (entryOf float files other) col := by
  obtain ⟨-, rfl⟩ := script_eq_ok_iff.mp written
  have writable : ∀ entry ∈ configurations.map (entryOf float files), Writable float entry := by
    intro entry listed
    obtain ⟨other, known, rfl⟩ := List.mem_map.mp listed
    exact ⟨mentions_delay other, finite other known⟩
  have blank : ∀ row, 1 ≤ row → ∀ col, headed Value row col = none := by
    intro row below col
    rw [headed_eq, if_neg (Nat.ne_of_gt below)]
  have cells := @foldl_writeEntry _ float _ _ writable (headed Value, 1) blank
  constructor
  · intro col
    exact cells 0 col
  · intro row col
    rw [cells, if_neg (Nat.not_lt.mpr (Nat.le_add_left 1 row)), Nat.add_sub_cancel,
      List.getElem?_map, Option.bind_map]
    rfl

theorem rowHolds_iff (written : script float files = .ok sheet)
    (finite : ∀ configuration ∈ configurations, ∀ average ∈ averages float files configuration,
      float.finite average = true) (member : configuration ∈ configurations) :
    RowHolds float files sheet configuration ↔
      ∀ number ∈ numbers, shown (averages float files configuration) (number - 1) =
        averageOf float files (configuration, number) := by
  obtain ⟨header, cells⟩ := script_cells written finite
  have own {row : Nat} (found : configurations[row]? = some configuration) (col : Nat) :
      sheet (row + 1) col = rowOf (entryOf float files configuration) col := by
    rw [cells, found, Option.bind_some]
  constructor
  · rintro ⟨row, positive, named, holds⟩ number counted
    obtain ⟨row, rfl⟩ : ∃ above, row = above + 1 := ⟨row - 1, by omega⟩
    -- no other configuration has the name
    have found : configurations[row]? = some configuration := by
      rw [cells] at named
      obtain ⟨other, found, same⟩ := Option.bind_eq_some_iff.mp named
      rw [found, name_injective (Cell.text.inj (Option.some.inj same))]
    obtain ⟨column, average, headedBy, read, cell⟩ := holds number counted
    obtain rfl := (headed_eq_iff counted).mp ((header column).symm.trans headedBy)
    obtain ⟨place, rfl⟩ := eq_succ_of_mem_numbers counted
    rw [averageOf_of_ok read]
    rw [own found] at cell
    exact Option.map_injective (fun _ _ => Cell.number.inj) cell
  · intro kept
    obtain ⟨row, found⟩ := List.getElem?_of_mem member
    refine ⟨row + 1, Nat.succ_pos row, own found 0, fun number counted => ?_⟩
    obtain ⟨numeric, -⟩ := script_eq_ok_iff.mp written
    obtain ⟨average, read⟩ := numeric (configuration, number) (mem_trials.mpr ⟨member, counted⟩)
    refine ⟨number, average, (header number).trans ((headed_eq_iff counted).mpr rfl), read, ?_⟩
    obtain ⟨place, rfl⟩ := eq_succ_of_mem_numbers counted
    rw [own found, ← averageOf_of_ok read, ← kept (place + 1) counted]
    rfl

/-- The rows hold what they should exactly for orderly files. -/
theorem rows_hold_iff (float : PythonFloat Value) (files : String → Option (List (List String))) :
    (∃ sheet, script float files = .ok sheet ∧
      ∀ configuration ∈ configurations, RowHolds float files sheet configuration) ↔
      ∀ configuration ∈ configurations, Orderly float files configuration := by
  constructor
  · rintro ⟨sheet, written, rows⟩ configuration member
    obtain ⟨numeric, filled⟩ := script_eq_ok_iff.mp written
    have finite (other : Configuration) (known : other ∈ configurations) :
        ∀ number ∈ numbers, ∀ average,
          trialAverage float files (other, number) = .ok (some average) →
            float.finite average = true := by
      intro number counted average read
      obtain ⟨row, -, -, holds⟩ := rows other known
      obtain ⟨column, shownAverage, -, same, cell⟩ := holds number counted
      obtain rfl := Except.ok.inj (read.symm.trans same)
      rw [← filled] at cell
      exact numbersFinite_headed.after_entries _ row column average cell
    exact {
      numeric := fun number counted =>
        numeric (configuration, number) (mem_trials.mpr ⟨member, counted⟩)
      finite := finite configuration member
      distinct := shown_averages_iff.mp ((rowHolds_iff written
        (fun other known => finite_averages (finite other known)) member).mp
          (rows configuration member)) }
  · intro orderly
    have numeric : ∀ trial ∈ trials, ∃ average, trialAverage float files trial = .ok average := by
      rintro ⟨configuration, number⟩ listed
      obtain ⟨member, counted⟩ := mem_trials.mp listed
      exact (orderly configuration member).numeric number counted
    have written := script_eq_ok_iff.mpr ⟨numeric, rfl⟩
    refine ⟨_, written, fun configuration member => ?_⟩
    refine (rowHolds_iff written (fun other known => finite_averages
      (orderly other known).finite) member).mpr ?_
    exact shown_averages_iff.mpr (orderly configuration member).distinct

end Script

def wholeNumbers : PythonFloat Nat where
  parse := fun text => some (Nat.ofDigitChars 10 text.toList 0)
  below := fun value => value < 3000000
  mean := fun values => values.sum / values.length
  finite := fun _ => true

/-- The first configuration has data in its second trial only, and the next has
the same data in its first two. -/
def sparseFiles (path : String) : Option (List (List String)) :=
  if path ∈ ["/delay/0/QUIC/bbr/2/goodput.txt", "/delay/0/QUIC/cubic/1/goodput.txt",
      "/delay/0/QUIC/cubic/2/goodput.txt"] then
    some [["1", "200"]]
  else none

/-- The average of a second trial is in the column of the first, and the column
of a second trial is empty if both averages are equal. -/
theorem averages_in_other_columns :
    [Cca.bbr, .cubic].map (fun cc => [1, 2].map fun number =>
        trialAverage wholeNumbers sparseFiles (⟨0, .quic, cc, .goodput⟩, number)) =
      [[.ok none, .ok (some 200)], [.ok (some 200), .ok (some 200)]] ∧
    ∃ sheet, script wholeNumbers sparseFiles = .ok sheet ∧
      [1, 2].map (fun row => [0, 1, 2].map (sheet row)) =
        [[some (.text "delay_0_QUIC_bbr_goodput"), some (.number 200), none],
          [some (.text "delay_0_QUIC_cubic_goodput"), some (.number 200), none]] := by
  have numeric : ∀ trial ∈ trials, ∃ average,
      trialAverage wholeNumbers sparseFiles trial = .ok average := by
    rintro ⟨⟨count, pro, cc, re⟩, number⟩ -
    unfold trialAverage sparseFiles
    split
    next => exact ⟨none, rfl⟩
    next lines found =>
      split at found
      · cases found
        cases pro <;> cases re <;> exact ⟨_, rfl⟩
      · cases found
  have written := script_eq_ok_iff.mpr ⟨numeric, rfl⟩
  obtain ⟨-, cells⟩ := script_cells written fun _ _ _ _ => rfl
  refine ⟨by decide +kernel, _, written, ?_⟩
  simp only [List.map_cons, List.map_nil, cells 0, cells 1]
  decide +kernel

end Ns3Quic.Experiment
