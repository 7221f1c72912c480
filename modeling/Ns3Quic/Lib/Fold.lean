import Mathlib.Data.List.Basic

/-!
# Loops that may fail

A loop over a list whose body may fail is a monadic fold into `Except`.  Its
invariant may mention the number of rounds that have been made.
-/

namespace LoopRules

universe u v w

variable {Fault : Type v} {State : Type u} {Item : Type w}

section Sequences

variable {First Second : Type u}

@[simp]
theorem bind_ok (value : First) (second : First → Except Fault Second) :
    Except.ok value >>= second = second value := rfl

@[simp]
theorem bind_error (fault : Fault) (second : First → Except Fault Second) :
    Except.error fault >>= second = .error fault := rfl

@[simp]
theorem pure_ok (value : First) : (pure value : Except Fault First) = .ok value := rfl

theorem bind_eq_ok {first : Except Fault First} {second : First → Except Fault Second}
    {result : Second} :
    first >>= second = .ok result ↔
      ∃ middle, first = .ok middle ∧ second middle = .ok result := by
  cases first with
  | error fault => simp
  | ok middle => simp

theorem bind_eq_error {first : Except Fault First} {second : First → Except Fault Second}
    {fault : Fault} :
    first >>= second = .error fault ↔
      first = .error fault ∨ ∃ middle, first = .ok middle ∧ second middle = .error fault := by
  cases first with
  | error other => simp
  | ok middle => simp

section Checks

variable {failing : Prop} [Decidable failing] {value : First} {failure : Fault}

theorem check_eq_ok {result : First} :
    (if failing then .error failure else .ok value : Except Fault First) = .ok result ↔
      ¬failing ∧ result = value := by
  split
  next failed =>
    exact iff_of_false (fun impossible => nomatch impossible) (fun both => both.1 failed)
  next passed => rw [Except.ok.injEq, and_iff_right passed, eq_comm]

theorem check_eq_error {fault : Fault} :
    (if failing then .error failure else .ok value : Except Fault First) = .error fault ↔
      failing ∧ fault = failure := by
  split
  next failed => rw [Except.error.injEq, and_iff_right failed, eq_comm]
  next passed =>
    exact iff_of_false (fun impossible => nomatch impossible) (fun both => passed both.1)

end Checks

end Sequences

/-- The counting invariant rule: what every successful round carries from
`count` to `count + 1` holds at the end for the length of the list. -/
theorem foldlM_invariant {body : State → Item → Except Fault State}
    (property : Nat → State → Prop) (items : List Item)
    (preserved : ∀ count state item next, item ∈ items →
      property count state → body state item = .ok next → property (count + 1) next)
    (count : Nat) {first last : State} (initially : property count first)
    (result : items.foldlM body first = .ok last) :
    property (count + items.length) last := by
  induction items generalizing count first with
  | nil =>
      rw [List.foldlM_nil, pure_ok, Except.ok.injEq] at result
      exact result ▸ initially
  | cons item rest inductionHypothesis =>
      rw [List.foldlM_cons] at result
      obtain ⟨next, step, later⟩ := bind_eq_ok.mp result
      rw [List.length_cons, Nat.add_comm rest.length 1, ← Nat.add_assoc]
      apply inductionHypothesis _ (count + 1) _ later
      · exact fun count state other after membership =>
          preserved count state other after (List.mem_cons_of_mem item membership)
      · exact preserved count first item next List.mem_cons_self initially step

/-- A loop whose rounds succeed or fail whatever the state is succeeds exactly if
all rounds do, and is then a loop that cannot fail. -/
theorem foldlM_eq_ok_iff {body : State → Item → Except Fault State} {succeeds : Item → Prop}
    {next : State → Item → State}
    (success : ∀ state item, succeeds item → body state item = .ok (next state item))
    (only : ∀ state item after, body state item = .ok after → succeeds item)
    (items : List Item) {first last : State} :
    items.foldlM body first = .ok last ↔
      (∀ item ∈ items, succeeds item) ∧ items.foldl next first = last := by
  induction items generalizing first with
  | nil =>
      rw [List.foldlM_nil, pure_ok, Except.ok.injEq]
      exact ⟨fun same => ⟨(fun _ membership => nomatch membership), same⟩, fun both => both.2⟩
  | cons item rest inductionHypothesis =>
      rw [List.foldlM_cons, bind_eq_ok, List.forall_mem_cons, List.foldl_cons]
      constructor
      · rintro ⟨middle, step, later⟩
        have succeeded := only first item middle step
        rw [success first item succeeded, Except.ok.injEq] at step
        subst step
        obtain ⟨others, same⟩ := inductionHypothesis.mp later
        exact ⟨⟨succeeded, others⟩, same⟩
      · rintro ⟨⟨succeeded, others⟩, same⟩
        exact ⟨_, success first item succeeded, inductionHypothesis.mpr ⟨others, same⟩⟩

/-- A fault of a loop is the fault of one of its rounds, in a state that the
invariant describes. -/
theorem foldlM_fault {body : State → Item → Except Fault State}
    (property : State → Prop) (items : List Item)
    (preserved : ∀ state item next, item ∈ items →
      property state → body state item = .ok next → property next)
    {first : State} (initially : property first) {fault : Fault}
    (result : items.foldlM body first = .error fault) :
    ∃ state, property state ∧ ∃ item ∈ items, body state item = .error fault := by
  induction items generalizing first with
  | nil => cases result
  | cons item rest inductionHypothesis =>
      rw [List.foldlM_cons] at result
      rcases bind_eq_error.mp result with failed | ⟨next, step, later⟩
      · exact ⟨first, initially, item, List.mem_cons_self, failed⟩
      · obtain ⟨state, holds, other, membership, failed⟩ := inductionHypothesis
          (fun state other after membership =>
            preserved state other after (List.mem_cons_of_mem item membership))
          (preserved first item next List.mem_cons_self initially step) later
        exact ⟨state, holds, other, List.mem_cons_of_mem item membership, failed⟩

/-- Every round of the loop meets the requirement in the state in which it
begins. -/
def Throughout (body : State → Item → Except Fault State) (requirement : State → Item → Prop) :
    State → List Item → Prop
  | _, [] => True
  | state, item :: rest =>
      requirement state item ∧
        match body state item with
        | .error _ => True
        | .ok next => Throughout body requirement next rest

instance decidableThroughout (body : State → Item → Except Fault State)
    (requirement : State → Item → Prop) [∀ state item, Decidable (requirement state item)] :
    ∀ state items, Decidable (Throughout body requirement state items)
  | _, [] => inferInstanceAs (Decidable True)
  | state, item :: rest =>
      have : Decidable (match body state item with
          | .error _ => True
          | .ok next => Throughout body requirement next rest) :=
        match body state item with
        | .error _ => inferInstanceAs (Decidable True)
        | .ok next => decidableThroughout body requirement next rest
      inferInstanceAs (Decidable (_ ∧ _))

section Throughout

variable {body : State → Item → Except Fault State} {requirement : State → Item → Prop}
  {first last : State} (property : State → Prop)

/-- The invariant rule for a loop whose rounds meet a requirement. -/
theorem foldlM_throughout (items : List Item)
    (preserved : ∀ state item next, property state → requirement state item →
      body state item = .ok next → property next)
    (throughout : Throughout body requirement first items) (initially : property first)
    (result : items.foldlM body first = .ok last) : property last := by
  induction items generalizing first with
  | nil =>
      rw [List.foldlM_nil, pure_ok, Except.ok.injEq] at result
      exact result ▸ initially
  | cons item rest inductionHypothesis =>
      rw [List.foldlM_cons] at result
      obtain ⟨next, step, later⟩ := bind_eq_ok.mp result
      obtain ⟨now, ahead⟩ := throughout
      rw [step] at ahead
      exact inductionHypothesis ahead (preserved first item next initially now step) later

theorem throughout_of_invariant (items : List Item)
    (preserved : ∀ state item next, property state → body state item = .ok next →
      property next)
    (required : ∀ state item, property state → requirement state item)
    (initially : property first) : Throughout body requirement first items := by
  induction items generalizing first with
  | nil => trivial
  | cons item rest inductionHypothesis =>
      refine ⟨required first item initially, ?_⟩
      split
      next => trivial
      next next step => exact inductionHypothesis (preserved first item next initially step)

end Throughout

end LoopRules
