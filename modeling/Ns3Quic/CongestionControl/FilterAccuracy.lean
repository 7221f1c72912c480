import Ns3Quic.CongestionControl.WindowedFilter
import Mathlib.Data.List.Induction

/-!
# What the windowed filter estimates

A history of a filter is the list of its updates, each with the window length
that is set when it is made.  The best estimate is one of the samples of the
window, and the least of all samples since it was taken.  It need not be the
least sample of the window: an estimate that expires is replaced by a younger
one, and samples between the two are forgotten.  A sample that is the least of
its window when it is taken is the best estimate until it leaves the window or
a lesser one is taken.
-/

namespace Ns3Quic.CongestionControl

universe u

structure FilterUpdate (T : Type u) where
  windowLength : Nat
  sample : T
  time : Nat
  deriving DecidableEq

namespace WindowedFilter

variable {T : Type u} [LinearOrder T]

def apply (filter : WindowedFilter T) (update : FilterUpdate T) : WindowedFilter T :=
  { filter with windowLength := update.windowLength }.update minFilter update.sample update.time

def afterUpdates (filter : WindowedFilter T) (history : List (FilterUpdate T)) :
    WindowedFilter T :=
  history.foldl apply filter

/-- The estimate was sampled, and nothing less was sampled since. -/
def Leads (history : List (FilterUpdate T)) (estimate : Sample T) : Prop :=
  ∃ front update back, history = front ++ update :: back ∧
    estimate = ⟨update.sample, update.time⟩ ∧ ∀ later ∈ back, estimate.sample ≤ later.sample

section Steps

variable {filter : WindowedFilter T} {history : List (FilterUpdate T)}
  {update : FilterUpdate T} {estimate : Sample T} {now : Nat}

theorem leads_new (history : List (FilterUpdate T)) (update : FilterUpdate T) :
    Leads (history ++ [update]) ⟨update.sample, update.time⟩ :=
  ⟨history, update, [], rfl, rfl, fun _ impossible => nomatch impossible⟩

theorem Leads.concat (leads : Leads history estimate) (least : estimate.sample ≤ update.sample) :
    Leads (history ++ [update]) estimate := by
  obtain ⟨front, own, back, rfl, rfl, since⟩ := leads
  refine ⟨front, own, back ++ [update], by simp, rfl, fun later present => ?_⟩
  rcases List.mem_append.mp present with old | new
  · exact since later old
  · rw [List.mem_singleton.mp new]
    exact least

theorem Leads.mem (leads : Leads history estimate) :
    ∃ update ∈ history, estimate = ⟨update.sample, update.time⟩ := by
  obtain ⟨front, own, back, rfl, same, _⟩ := leads
  exact ⟨own, by simp, same⟩

theorem leads_replaceWorse (leads : filter.Forall (Leads history))
    (worse : minFilter update.sample filter.best.sample = false) :
    (filter.replaceWorse minFilter update.sample update.time).Forall
      (Leads (history ++ [update])) := by
  obtain ⟨best, second, third⟩ := leads
  simp only [minFilter, decide_eq_false_iff_not, not_le] at worse
  have new := leads_new history update
  unfold replaceWorse
  simp only [minFilter, decide_eq_true_eq]
  split
  next => exact ⟨best.concat worse.le, new, new⟩
  next behindSecond =>
    have second := second.concat (not_le.mp behindSecond).le
    split
    next => exact ⟨best.concat worse.le, second, new⟩
    next behindThird =>
      exact ⟨best.concat worse.le, second, third.concat (not_le.mp behindThird).le⟩

theorem leads_apply (leads : filter.Forall (Leads history)) :
    (filter.apply update).Forall (Leads (history ++ [update])) := by
  have new := leads_new history update
  unfold apply
  rcases ({ filter with windowLength := update.windowLength }).update_eq minFilter update.sample
    update.time with resets | ⟨_, worse, _, shape⟩
  · rw [resets]
    exact ⟨new, new, new⟩
  · rw [shape]
    exact forall_expire (leads_replaceWorse leads worse) new

theorem leads_first (unset : filter.best.sample = filter.zeroValue) (update : FilterUpdate T) :
    (filter.apply update).Forall (Leads [update]) := by
  have new := leads_new [] update
  have resets : filter.apply update =
      { filter with windowLength := update.windowLength }.reset update.sample update.time := by
    unfold apply WindowedFilter.update
    rw [if_pos (Or.inl unset)]
  rw [resets]
  exact ⟨new, new, new⟩

theorem aged_apply (aged : filter.Aged now) (later : now ≤ update.time) :
    (filter.apply update).Aged update.time :=
  aged_update (show Aged { filter with windowLength := update.windowLength } now from aged) later

omit [LinearOrder T] in
theorem Aged.mono (aged : filter.Aged now) {later : Nat} (forward : now ≤ later) :
    filter.Aged later :=
  ⟨aged.1, aged.2.1, aged.2.2.trans forward⟩

omit [LinearOrder T] in
theorem olderThan_eq_false_iff (past : estimate.time ≤ now) (fits : now < 2 ^ 64) {length : Nat} :
    olderThan length estimate now = false ↔ now ≤ estimate.time + length := by
  have age := subU64_of_le past fits
  simp only [olderThan, decide_eq_false_iff_not, not_lt]
  rw [age]
  exact Nat.sub_le_iff_le_add'

theorem expire_cases (filter : WindowedFilter T) (newSample : T) (newTime : Nat) :
    (olderThan filter.windowLength filter.best newTime = true ∧
      filter.expire newSample newTime =
        { filter with
          best := filter.third
          second := ⟨newSample, newTime⟩
          third := ⟨newSample, newTime⟩ }) ∨
    (olderThan filter.windowLength filter.best newTime = true ∧
      olderThan filter.windowLength filter.second newTime = false ∧
      filter.expire newSample newTime =
        { filter with
          best := filter.second, second := filter.third, third := ⟨newSample, newTime⟩ }) ∨
    (olderThan filter.windowLength filter.best newTime = false ∧
      ∃ second third, filter.expire newSample newTime =
        { filter with second := second, third := third }) := by
  unfold expire
  split
  next expired =>
    dsimp only
    cases secondOld : olderThan filter.windowLength filter.second newTime with
    | true => exact Or.inl ⟨expired, if_pos rfl⟩
    | false => exact Or.inr (Or.inl ⟨expired, rfl, if_neg Bool.false_ne_true⟩)
  next recent =>
    refine Or.inr (Or.inr ⟨Bool.not_eq_true _ ▸ recent, ?_⟩)
    split
    next => exact ⟨_, _, rfl⟩
    next =>
      split
      next => exact ⟨_, _, rfl⟩
      next => exact ⟨_, _, rfl⟩

theorem recent_expire (aged : filter.Aged now) (fits : now < 2 ^ 64) (newSample : T)
    (third : now ≤ filter.third.time + filter.windowLength) :
    now ≤ (filter.expire newSample now).best.time + filter.windowLength := by
  obtain ⟨first, second, last⟩ := aged
  rcases filter.expire_cases newSample now with ⟨_, shape⟩ | ⟨_, recent, shape⟩ |
    ⟨recent, _, _, shape⟩
  · rw [shape]
    exact third
  · rw [shape]
    exact (olderThan_eq_false_iff (second.trans last) fits).mp recent
  · rw [shape]
    exact (olderThan_eq_false_iff ((first.trans second).trans last) fits).mp recent

omit [LinearOrder T] in
theorem replaceWorse_cases (compare : T → T → Bool) (filter : WindowedFilter T) (newSample : T)
    (newTime : Nat) :
    (compare newSample filter.second.sample = true ∧
      filter.replaceWorse compare newSample newTime =
        { filter with second := ⟨newSample, newTime⟩, third := ⟨newSample, newTime⟩ }) ∨
    (compare newSample filter.second.sample = false ∧
      compare newSample filter.third.sample = true ∧
      filter.replaceWorse compare newSample newTime =
        { filter with third := ⟨newSample, newTime⟩ }) ∨
    (compare newSample filter.second.sample = false ∧
      compare newSample filter.third.sample = false ∧
      filter.replaceWorse compare newSample newTime = filter) := by
  unfold replaceWorse
  cases second : compare newSample filter.second.sample with
  | true => exact Or.inl ⟨rfl, if_pos rfl⟩
  | false =>
      cases third : compare newSample filter.third.sample with
      | true => exact Or.inr (Or.inl ⟨rfl, rfl, rfl⟩)
      | false => exact Or.inr (Or.inr ⟨rfl, rfl, rfl⟩)

theorem recent_apply (aged : filter.Aged now) (later : now ≤ update.time)
    (fits : update.time < 2 ^ 64) :
    update.time ≤ (filter.apply update).best.time + update.windowLength := by
  have agedReplaced := @aged_replaceWorse _ { filter with windowLength := update.windowLength }
    minFilter update.sample _ _ aged later
  unfold apply
  rcases ({ filter with windowLength := update.windowLength }).update_eq minFilter update.sample
    update.time with resets | ⟨_, _, third, shape⟩
  · rw [resets]
    exact Nat.le_add_right _ _
  · have thirdRecent := (olderThan_eq_false_iff (aged.2.2.trans later) fits).mp third
    rw [shape]
    rcases replaceWorse_cases minFilter { filter with windowLength := update.windowLength }
      update.sample update.time with ⟨_, replaced⟩ | ⟨_, _, replaced⟩ | ⟨_, _, replaced⟩
    · rw [replaced] at agedReplaced ⊢
      exact recent_expire agedReplaced fits update.sample (Nat.le_add_right _ _)
    · rw [replaced] at agedReplaced ⊢
      exact recent_expire agedReplaced fits update.sample (Nat.le_add_right _ _)
    · rw [replaced] at agedReplaced ⊢
      exact recent_expire agedReplaced fits update.sample thirdRecent

theorem best_apply (aged : filter.Aged now) (later : now ≤ update.time)
    (fits : update.time < 2 ^ 64) (measured : filter.best.sample ≠ filter.zeroValue)
    (recent : update.time ≤ filter.best.time + update.windowLength) :
    (filter.apply update).best = filter.best ∨
      ((filter.apply update).best = ⟨update.sample, update.time⟩ ∧
        update.sample ≤ filter.best.sample) := by
  have notOlder : olderThan update.windowLength filter.best update.time = false :=
    (olderThan_eq_false_iff (((aged.1.trans aged.2.1).trans aged.2.2).trans later) fits).mpr recent
  have thirdRecent := aged.third_recent later fits notOlder
  unfold apply WindowedFilter.update
  split
  next resets =>
    refine Or.inr ⟨rfl, ?_⟩
    rcases resets with unset | better | expired
    · exact absurd unset measured
    · exact of_decide_eq_true better
    · cases thirdRecent.symm.trans expired
  next =>
    have unexpired {replaced : WindowedFilter T} (best : replaced.best = filter.best)
        (window : replaced.windowLength = update.windowLength) :
        (replaced.expire update.sample update.time).best = filter.best := by
      rw [← best, ← window] at notOlder
      rcases replaced.expire_cases update.sample update.time with ⟨expired, _⟩ | ⟨expired, _⟩ |
        ⟨_, _, _, shape⟩
      · cases notOlder.symm.trans expired
      · cases notOlder.symm.trans expired
      · rw [shape]
        exact best
    left
    rcases replaceWorse_cases minFilter { filter with windowLength := update.windowLength }
      update.sample update.time with ⟨_, replaced⟩ | ⟨_, _, replaced⟩ | ⟨_, _, replaced⟩ <;>
    · rw [replaced]
      exact unexpired rfl rfl

theorem best_apply_of_least (leads : filter.Forall (Leads history)) (aged : filter.Aged now)
    (later : now ≤ update.time) (fits : update.time < 2 ^ 64)
    (least : ∀ before ∈ history, update.time ≤ before.time + update.windowLength →
      update.sample ≤ before.sample) :
    (filter.apply update).best = ⟨update.sample, update.time⟩ := by
  -- an estimate that the new sample does not beat has left the window
  have expired {estimate : Sample T} (leads : Leads history estimate)
      (past : estimate.time ≤ update.time)
      (better : minFilter update.sample estimate.sample = false) :
      olderThan update.windowLength estimate update.time ≠ false := by
    intro recent
    obtain ⟨before, present, rfl⟩ := leads.mem
    exact of_decide_eq_false better
      (least before present ((olderThan_eq_false_iff past fits).mp recent))
  obtain ⟨best, second, third⟩ := leads
  obtain ⟨young, younger, youngest⟩ := aged
  unfold apply
  rcases ({ filter with windowLength := update.windowLength }).update_eq minFilter update.sample
    update.time with resets | ⟨_, worse, recentThird, shape⟩
  · rw [resets]
    rfl
  · have bestExpired := expired best (((young.trans younger).trans youngest).trans later) worse
    rw [shape]
    rcases replaceWorse_cases minFilter { filter with windowLength := update.windowLength }
      update.sample update.time with ⟨_, replaced⟩ | ⟨better, _, replaced⟩ | ⟨_, better, _⟩
    · rw [replaced]
      rcases expire_cases { filter with
          windowLength := update.windowLength
          second := ⟨update.sample, update.time⟩
          third := ⟨update.sample, update.time⟩ } update.sample update.time with
        ⟨_, shape⟩ | ⟨_, _, shape⟩ | ⟨recent, _⟩
      · rw [shape]
      · rw [shape]
      · exact absurd recent bestExpired
    · have secondExpired := expired second ((younger.trans youngest).trans later) better
      rw [replaced]
      rcases expire_cases { filter with
          windowLength := update.windowLength
          third := ⟨update.sample, update.time⟩ } update.sample update.time with
        ⟨_, shape⟩ | ⟨_, recent, _⟩ | ⟨recent, _⟩
      · rw [shape]
      · exact absurd recent secondExpired
      · exact absurd recent bestExpired
    · exact absurd recentThird (expired third (youngest.trans later) better)

end Steps

section Histories

variable {zeroValue : T} {zeroTime windowLength : Nat} {history earlier : List (FilterUpdate T)}
  {update last : FilterUpdate T} {filter : WindowedFilter T}

structure Timely (zeroValue : T) (zeroTime : Nat) (history : List (FilterUpdate T)) : Prop where
  measured : ∀ update ∈ history, update.sample ≠ zeroValue
  started : ∀ update ∈ history, zeroTime ≤ update.time
  fits : ∀ update ∈ history, update.time < 2 ^ 64
  inOrder : history.Pairwise fun before after => before.time ≤ after.time

omit [LinearOrder T] in
theorem Timely.concat_iff :
    Timely zeroValue zeroTime (history ++ [update]) ↔
      Timely zeroValue zeroTime history ∧ update.sample ≠ zeroValue ∧ zeroTime ≤ update.time ∧
        update.time < 2 ^ 64 ∧ ∀ before ∈ history, before.time ≤ update.time := by
  constructor
  · rintro ⟨measured, started, fits, inOrder⟩
    rw [List.pairwise_append] at inOrder
    have old {before : FilterUpdate T} (present : before ∈ history) :
        before ∈ history ++ [update] := List.mem_append_left _ present
    have new : update ∈ history ++ [update] :=
      List.mem_append_right _ (List.mem_singleton_self _)
    exact ⟨⟨fun _ present => measured _ (old present), fun _ present => started _ (old present),
      fun _ present => fits _ (old present), inOrder.1⟩, measured _ new, started _ new,
      fits _ new, fun before present => inOrder.2.2 before present update
        (List.mem_singleton_self _)⟩
  · rintro ⟨⟨measured, started, fits, inOrder⟩, isMeasured, isStarted, isFit, latest⟩
    refine ⟨?_, ?_, ?_, ?_⟩
    · simpa [or_imp, forall_and] using ⟨measured, isMeasured⟩
    · simpa [or_imp, forall_and] using ⟨started, isStarted⟩
    · simpa [or_imp, forall_and] using ⟨fits, isFit⟩
    · rw [List.pairwise_append]
      exact ⟨inOrder, List.pairwise_singleton _ _, by simpa using latest⟩

structure Accurate (zeroValue : T) (zeroTime : Nat) (history : List (FilterUpdate T))
    (filter : WindowedFilter T) : Prop where
  zero : filter.zeroValue = zeroValue
  unset : history = [] → filter.best.sample = zeroValue
  leads : history ≠ [] → filter.Forall (Leads history)
  aged : ∀ now, zeroTime ≤ now → (∀ update ∈ history, update.time ≤ now) → filter.Aged now

theorem accurate_create (windowLength : Nat) (zeroValue : T) (zeroTime : Nat) :
    Accurate zeroValue zeroTime [] (create windowLength zeroValue zeroTime) where
  zero := rfl
  unset := fun _ => rfl
  leads := fun nonempty => absurd rfl nonempty
  aged := fun _ started _ => ⟨le_refl _, le_refl _, started⟩

theorem Accurate.apply (accurate : Accurate zeroValue zeroTime history filter)
    (timely : Timely zeroValue zeroTime (history ++ [update])) :
    Accurate zeroValue zeroTime (history ++ [update]) (filter.apply update) where
  zero := (update_constants _ _ _ _).2.trans accurate.zero
  unset := fun impossible => absurd impossible (by simp)
  leads := fun _ => by
    by_cases first : history = []
    · subst first
      exact leads_first ((accurate.unset rfl).trans accurate.zero.symm) update
    · exact leads_apply (accurate.leads first)
  aged := fun now started latest => by
    obtain ⟨_, _, isStarted, _, after⟩ := Timely.concat_iff.mp timely
    exact (aged_apply (accurate.aged update.time isStarted after) (le_refl _)).mono
      (latest update (List.mem_append_right _ (List.mem_singleton_self _)))

@[simp] theorem afterUpdates_concat (filter : WindowedFilter T)
    (history : List (FilterUpdate T)) (update : FilterUpdate T) :
    filter.afterUpdates (history ++ [update]) = (filter.afterUpdates history).apply update := by
  simp [afterUpdates]

theorem accurate_afterUpdates (windowLength : Nat)
    (timely : Timely zeroValue zeroTime history) :
    Accurate zeroValue zeroTime history
      ((create windowLength zeroValue zeroTime).afterUpdates history) := by
  induction history using List.reverseRecOn with
  | nil => exact accurate_create windowLength zeroValue zeroTime
  | append_singleton history update inductionHypothesis =>
      rw [afterUpdates_concat]
      exact (inductionHypothesis (Timely.concat_iff.mp timely).1).apply timely

theorem Accurate.recent_apply (accurate : Accurate zeroValue zeroTime history filter)
    (timely : Timely zeroValue zeroTime (history ++ [update])) :
    update.time ≤ (filter.apply update).best.time + update.windowLength := by
  obtain ⟨_, _, started, fits, after⟩ := Timely.concat_iff.mp timely
  exact WindowedFilter.recent_apply (accurate.aged update.time started after) (le_refl _) fits

theorem Accurate.best_of_least (accurate : Accurate zeroValue zeroTime history filter)
    (timely : Timely zeroValue zeroTime (history ++ [update]))
    (least : ∀ before ∈ history, update.time ≤ before.time + update.windowLength →
      update.sample ≤ before.sample) :
    (filter.apply update).best = ⟨update.sample, update.time⟩ := by
  obtain ⟨_, _, started, fits, after⟩ := Timely.concat_iff.mp timely
  by_cases first : history = []
  · subst first
    obtain ⟨own, present, same⟩ :=
      (leads_first ((accurate.unset rfl).trans accurate.zero.symm) update).1.mem
    rw [same, List.mem_singleton.mp present]
  · exact best_apply_of_least (accurate.leads first) (accurate.aged update.time started after)
      (le_refl _) fits least

theorem Accurate.best_kept (accurate : Accurate zeroValue zeroTime history filter)
    (nonempty : history ≠ []) (timely : Timely zeroValue zeroTime (history ++ [update]))
    {own : FilterUpdate T} (best : filter.best.sample = own.sample)
    (taken : own.time ≤ filter.best.time) (least : own.sample ≤ update.sample)
    (recent : update.time ≤ own.time + update.windowLength) :
    (filter.apply update).best.sample = own.sample ∧
      own.time ≤ (filter.apply update).best.time := by
  obtain ⟨before, _, started, fits, after⟩ := Timely.concat_iff.mp timely
  have aged := accurate.aged update.time started after
  have measured : filter.best.sample ≠ filter.zeroValue := by
    obtain ⟨source, present, same⟩ := (accurate.leads nonempty).1.mem
    rw [same, accurate.zero]
    exact before.measured source present
  rcases best_apply aged (le_refl _) fits measured
    (recent.trans (Nat.add_le_add_right taken _)) with kept | ⟨replaced, better⟩
  · rw [kept]
    exact ⟨best, taken⟩
  · rw [replaced]
    refine ⟨le_antisymm (better.trans best.le) least, taken.trans ?_⟩
    exact (aged.1.trans aged.2.1).trans aged.2.2

theorem best_of_least_since (windowLength : Nat) {front back : List (FilterUpdate T)}
    {own : FilterUpdate T} (timely : Timely zeroValue zeroTime (front ++ own :: back))
    (least : ∀ before ∈ front, own.time ≤ before.time + own.windowLength →
      own.sample ≤ before.sample)
    (since : ∀ later ∈ back, own.sample ≤ later.sample ∧
      later.time ≤ own.time + later.windowLength) :
    let filter := (create windowLength zeroValue zeroTime).afterUpdates (front ++ own :: back)
    filter.best.sample = own.sample ∧ own.time ≤ filter.best.time := by
  -- induction on the updates since the sample was taken
  induction back using List.reverseRecOn with
  | nil =>
      have accurate := accurate_afterUpdates windowLength (Timely.concat_iff.mp timely).1
      simp only [afterUpdates_concat, accurate.best_of_least timely least, le_refl, and_self]
  | append_singleton back update inductionHypothesis =>
      rw [show front ++ own :: (back ++ [update]) = (front ++ own :: back) ++ [update] by simp]
        at timely ⊢
      have before := (Timely.concat_iff.mp timely).1
      obtain ⟨best, taken⟩ := inductionHypothesis before
        fun later present => since later (List.mem_append_left _ present)
      obtain ⟨notLess, recent⟩ :=
        since update (List.mem_append_right _ (List.mem_singleton_self _))
      rw [afterUpdates_concat]
      exact (accurate_afterUpdates windowLength before).best_kept (by simp) timely best taken
        notLess recent

/-- What the best estimate says after the update `last`. -/
structure Estimates (history : List (FilterUpdate T)) (last : FilterUpdate T) (best : T) :
    Prop where
  /-- It was sampled in the window, and nothing less was sampled since. -/
  sampled : ∃ front own back, history ++ [last] = front ++ own :: back ∧
    best = own.sample ∧ last.time ≤ own.time + last.windowLength ∧
    ∀ later ∈ back, own.sample ≤ later.sample
  /-- A sample that was the least of its window when it was taken is the best
  estimate until it leaves the window or a lesser one is taken. -/
  exactly : ∀ front own back, history ++ [last] = front ++ own :: back →
    (∀ before ∈ front, own.time ≤ before.time + own.windowLength →
      own.sample ≤ before.sample) →
    (∀ later ∈ back, own.sample ≤ later.sample ∧
      later.time ≤ own.time + later.windowLength) →
    best = own.sample

theorem Estimates.le_last {history : List (FilterUpdate T)} {last : FilterUpdate T} {best : T}
    (estimates : Estimates history last best) : best ≤ last.sample := by
  obtain ⟨front, own, back, split, rfl, -, since⟩ := estimates.sampled
  have newest : some last = (own :: back).getLast? := by
    have ends := congrArg List.getLast? split
    rwa [List.getLast?_concat, List.getLast?_append, Option.or_of_isSome (by simp)] at ends
  obtain rfl | later : last = own ∨ last ∈ back :=
    List.mem_cons.mp (List.mem_of_getLast? newest.symm)
  · exact le_rfl
  · exact since last later

theorem getBest_estimates (windowLength : Nat) (history : List (FilterUpdate T))
    (last : FilterUpdate T) (timely : Timely zeroValue zeroTime (history ++ [last])) :
    Estimates history last
      ((create windowLength zeroValue zeroTime).afterUpdates (history ++ [last])).getBest where
  sampled := by
    have accurate := accurate_afterUpdates windowLength (Timely.concat_iff.mp timely).1
    have recent := accurate.recent_apply timely
    obtain ⟨front, own, back, split, same, since⟩ :=
      ((accurate.apply timely).leads (by simp)).1
    rw [same] at recent since
    exact ⟨front, own, back, split, by rw [afterUpdates_concat, getBest, same], recent, since⟩
  exactly := by
    intro front own back split least since
    rw [split] at timely ⊢
    exact (best_of_least_since windowLength timely least since).1

/-- The window holds a lesser sample than the best estimate: 4 was sampled two
ticks before. -/
example :
    ((create 4 0 0).afterUpdates [⟨4, 2, 1⟩, ⟨4, 1, 2⟩, ⟨4, 2, 3⟩, ⟨4, 2, 4⟩, ⟨4, 3, 5⟩,
      ⟨4, 3, 6⟩, ⟨4, 4, 7⟩, ⟨4, 5, 8⟩, ⟨4, 5, 9⟩]).getBest = 5 := by
  decide

end Histories

end WindowedFilter

end Ns3Quic.CongestionControl
