import Mathlib.Data.List.Basic

/-!
Contract: a counter per clock tick whose tick field wraps.

Owns the counter that compares the full clock reading with a tick stored modulo
`ticks`, the exact condition under which the stamps it issues for a
non-decreasing clock keep increasing when readings pass the field, and exactly
which stamps it issues for one tick while they do not.

Does not own how a stamp is packed or where fresh counts come from.
-/

namespace Ferroid.Library.TickCounter

/-- A stored tick and the count within it. -/
structure Stamp where
  tick : Nat
  count : Nat
deriving DecidableEq, Repr

/-- Stamps compare by tick, then by count. -/
def Stamp.Below (left right : Stamp) : Prop :=
  left.tick < right.tick ∨ left.tick = right.tick ∧ left.count < right.count

/-- The stamps issued for a list of readings. `fresh` supplies the first count
of every entered tick, in order of entry. -/
def issue (ticks counts : Nat) (fresh : Nat → Nat) : Stamp → Nat → List Nat → List Stamp
  | _, _, [] => []
  | state, entered, now :: rest =>
      if now = state.tick then
        if state.count + 1 < counts then
          let next : Stamp := ⟨state.tick, state.count + 1⟩
          next :: issue ticks counts fresh next entered rest
        else
          issue ticks counts fresh state entered rest
      else if state.tick < now then
        let next : Stamp := ⟨now % ticks, fresh entered⟩
        next :: issue ticks counts fresh next (entered + 1) rest
      else
        issue ticks counts fresh state entered rest

/-- The reading gets a stamp when it is the first one seen in this state. -/
def Issues (counts : Nat) (state : Stamp) (now : Nat) : Prop :=
  state.tick < now ∨ now = state.tick ∧ state.count + 1 < counts

/-- No reading past the field falls back to the stored tick of an earlier reading
that gets a stamp, or below it. -/
def NoFallBack (ticks counts : Nat) (state : Stamp) (readings : List Nat) : Prop :=
  readings.Pairwise fun earlier later =>
    ticks ≤ later → Issues counts state earlier → earlier % ticks < later % ticks

variable {ticks counts : Nat} {fresh : Nat → Nat}

/-! ## The three cases of one reading -/

theorem issue_same {state : Stamp} {entered now : Nat} {rest : List Nat}
    (same : now = state.tick) (room : state.count + 1 < counts) :
    issue ticks counts fresh state entered (now :: rest) =
      ⟨state.tick, state.count + 1⟩ ::
        issue ticks counts fresh ⟨state.tick, state.count + 1⟩ entered rest := by
  simp only [issue, same, if_true, room]

theorem issue_later {state : Stamp} {entered now : Nat} {rest : List Nat}
    (later : state.tick < now) :
    issue ticks counts fresh state entered (now :: rest) =
      ⟨now % ticks, fresh entered⟩ ::
        issue ticks counts fresh ⟨now % ticks, fresh entered⟩ (entered + 1) rest := by
  simp only [issue, Nat.ne_of_gt later, if_false, later, if_true]

theorem issue_skip {state : Stamp} {entered now : Nat} {rest : List Nat}
    (skipped : ¬ Issues counts state now) :
    issue ticks counts fresh state entered (now :: rest) =
      issue ticks counts fresh state entered rest := by
  simp only [Issues, not_or, not_and] at skipped
  by_cases same : now = state.tick
  · simp only [issue, same, if_true, skipped.2 same, if_false]
  · simp only [issue, same, if_false, skipped.1]

/-! ## What is issued -/

/-- A later stamp continues the stored tick or belongs to a reading past it. -/
theorem mem_issue {state stamp : Stamp} {entered : Nat} {readings : List Nat}
    (sorted : readings.Pairwise (· ≤ ·))
    (member : stamp ∈ issue ticks counts fresh state entered readings) :
    stamp.tick = state.tick ∧ state.count < stamp.count ∨
      ∃ now ∈ readings, state.tick < now ∧ stamp.tick = now % ticks := by
  induction readings generalizing state entered with
  | nil => simp [issue] at member
  | cons now rest inductionHypothesis =>
      obtain ⟨first, restSorted⟩ := List.pairwise_cons.mp sorted
      by_cases issues : Issues counts state now
      · rcases issues with later | ⟨same, room⟩
        · rw [issue_later later] at member
          apply Or.inr
          rcases List.mem_cons.mp member with rfl | afterwards
          · exact ⟨now, by simp, later, rfl⟩
          · rcases inductionHypothesis restSorted afterwards with
              ⟨tick, _⟩ | ⟨reading, known, past⟩
            · exact ⟨now, by simp, later, tick⟩
            · have ahead : state.tick < reading := Nat.lt_of_lt_of_le later (first reading known)
              exact ⟨reading, by simp [known], ahead, past.2⟩
        · rw [issue_same same room] at member
          rcases List.mem_cons.mp member with rfl | afterwards
          · exact Or.inl ⟨rfl, Nat.lt_succ_self _⟩
          · rcases inductionHypothesis restSorted afterwards with
              ⟨tick, count⟩ | ⟨reading, known, past⟩
            · exact Or.inl ⟨tick, Nat.lt_of_succ_lt count⟩
            · exact Or.inr ⟨reading, by simp [known], past⟩
      · rw [issue_skip issues] at member
        rcases inductionHypothesis restSorted member with stays | ⟨reading, known, past⟩
        · exact Or.inl stays
        · exact Or.inr ⟨reading, by simp [known], past⟩

/-- A reading past the field is past every stored tick, so it always gets a
fresh stamp. -/
theorem mem_issue_of_past (counts : Nat) (fresh : Nat → Nat) {state : Stamp}
    (stored : state.tick < ticks) (entered : Nat) {now : Nat} {readings : List Nat}
    (member : now ∈ readings) (past : ticks ≤ now) :
    ∃ index, (⟨now % ticks, fresh index⟩ : Stamp) ∈
      issue ticks counts fresh state entered readings := by
  induction readings generalizing state entered with
  | nil => simp at member
  | cons reading rest inductionHypothesis =>
      have wrapped : reading % ticks < ticks := Nat.mod_lt _ (by omega)
      rcases List.mem_cons.mp member with rfl | later
      · rw [issue_later (by omega)]
        exact ⟨entered, by simp⟩
      · by_cases issues : Issues counts state reading
        · rcases issues with entering | ⟨same, room⟩
          · rw [issue_later entering]
            obtain ⟨index, found⟩ := @inductionHypothesis ⟨reading % ticks, fresh entered⟩ wrapped
              (entered + 1) later
            exact ⟨index, by simp [found]⟩
          · rw [issue_same same room]
            obtain ⟨index, found⟩ := @inductionHypothesis ⟨state.tick, state.count + 1⟩ stored
              entered later
            exact ⟨index, by simp [found]⟩
        · rw [issue_skip issues]
          exact inductionHypothesis stored entered later

/-! ## The exact condition -/

/-- The stamp of a reading lies below all stamps of the later readings. -/
private theorem below_of_mem {next stamp : Stamp} {entered now : Nat} {rest : List Nat}
    (sorted : rest.Pairwise (· ≤ ·)) (stored : next.tick = now % ticks)
    (noFallBack : ∀ later ∈ rest, ticks ≤ later → now % ticks < later % ticks)
    (member : stamp ∈ issue ticks counts fresh next entered rest) : next.Below stamp := by
  rcases mem_issue sorted member with ⟨tick, count⟩ | ⟨reading, known, past, tick⟩
  · exact Or.inr ⟨tick.symm, count⟩
  · left
    rw [tick]
    by_cases fits : reading < ticks
    · rwa [Nat.mod_eq_of_lt fits]
    · rw [stored]
      exact noFallBack reading known (by omega)

/-- Without a fall back the issued stamps increase, whatever the fresh counts. -/
theorem issue_increasing {state : Stamp} (stored : state.tick < ticks) {entered : Nat}
    {readings : List Nat} (sorted : readings.Pairwise (· ≤ ·))
    (noFallBack : NoFallBack ticks counts state readings) :
    (issue ticks counts fresh state entered readings).Pairwise Stamp.Below := by
  induction readings generalizing state entered with
  | nil => simp [issue]
  | cons now rest inductionHypothesis =>
      obtain ⟨first, restSorted⟩ := List.pairwise_cons.mp sorted
      obtain ⟨fromNow, restNoFallBack⟩ := List.pairwise_cons.mp noFallBack
      by_cases issues : Issues counts state now
      · have above : ∀ later ∈ rest, ticks ≤ later → now % ticks < later % ticks :=
          fun later member past => fromNow later member past issues
        rcases issues with later | ⟨same, room⟩
        · have wrapped : now % ticks < ticks := Nat.mod_lt _ (by omega)
          rw [issue_later later]
          refine List.pairwise_cons.mpr ⟨fun stamp => below_of_mem restSorted rfl above, ?_⟩
          apply inductionHypothesis wrapped restSorted
          apply restNoFallBack.imp_of_mem
          intro reading other member _ condition past _
          exact condition past (Or.inl (Nat.lt_of_lt_of_le later (first reading member)))
        · have stays : state.tick = now % ticks := by
            rw [same, Nat.mod_eq_of_lt stored]
          rw [issue_same same room]
          refine List.pairwise_cons.mpr ⟨fun stamp => below_of_mem restSorted stays above, ?_⟩
          refine @inductionHypothesis ⟨state.tick, state.count + 1⟩ stored entered restSorted
            (restNoFallBack.imp ?_)
          intro reading other condition past issuesNext
          apply condition past
          rcases issuesNext with entering | ⟨sameTick, _⟩
          · exact Or.inl entering
          · exact Or.inr ⟨sameTick, room⟩
      · rw [issue_skip issues]
        exact inductionHypothesis stored restSorted restNoFallBack

/-- With fresh counts of zero, increasing stamps exclude a fall back. -/
theorem noFallBack_of_increasing (zero : ∀ index, fresh index = 0) {state : Stamp}
    (stored : state.tick < ticks) {entered : Nat} {readings : List Nat}
    (sorted : readings.Pairwise (· ≤ ·))
    (increasing : (issue ticks counts fresh state entered readings).Pairwise Stamp.Below) :
    NoFallBack ticks counts state readings := by
  induction readings generalizing state entered with
  | nil => exact List.Pairwise.nil
  | cons now rest inductionHypothesis =>
      obtain ⟨first, restSorted⟩ := List.pairwise_cons.mp sorted
      by_cases issues : Issues counts state now
      · -- Whichever stamp `now` gets, its tick is `now % ticks`.
        obtain ⟨next, nextEntered, nextTick, nextStored, issued⟩ : ∃ next nextEntered,
            next.tick = now % ticks ∧ next.tick < ticks ∧
              issue ticks counts fresh state entered (now :: rest) =
                next :: issue ticks counts fresh next nextEntered rest := by
          rcases issues with later | ⟨same, room⟩
          · exact ⟨_, _, rfl, Nat.mod_lt _ (by omega), issue_later later⟩
          · refine ⟨⟨state.tick, state.count + 1⟩, entered, ?_, stored, issue_same same room⟩
            rw [same, Nat.mod_eq_of_lt stored]
        rw [issued] at increasing
        obtain ⟨above, restIncreasing⟩ := List.pairwise_cons.mp increasing
        have fromNow : ∀ later ∈ rest, ticks ≤ later → now % ticks < later % ticks := by
          intro later member past
          obtain ⟨index, found⟩ :=
            mem_issue_of_past counts fresh nextStored nextEntered member past
          rcases above _ found with less | ⟨_, count⟩
          · rwa [nextTick] at less
          · rw [zero] at count
            exact absurd count (Nat.not_lt_zero _)
        refine List.pairwise_cons.mpr ⟨fun later member past _ => fromNow later member past, ?_⟩
        apply (inductionHypothesis nextStored restSorted restIncreasing).imp_of_mem
        intro reading other readingMember otherMember condition past _
        have notBefore := first reading readingMember
        by_cases issuesNext : Issues counts next reading
        · exact condition past issuesNext
        · have wrapped : now % ticks ≤ now := Nat.mod_le _ _
          have same : reading = now := by
            simp only [Issues, not_or] at issuesNext
            omega
          rw [same]
          exact fromNow other otherMember past
      · rw [issue_skip issues] at increasing
        refine List.pairwise_cons.mpr ⟨fun _ _ _ issuesNow => absurd issuesNow issues, ?_⟩
        exact inductionHypothesis stored restSorted increasing

/-! ## What one tick gets -/

/-- The first `size` stamps of a tick from a count on. -/
def countUp (tick first size : Nat) : List Stamp :=
  (List.range size).map fun index => ⟨tick, first + index⟩

theorem countUp_succ (tick first size : Nat) :
    countUp tick first (size + 1) = ⟨tick, first⟩ :: countUp tick (first + 1) size := by
  rw [countUp, List.range_succ_eq_map, List.map_cons, List.map_map]
  refine congrArg₂ List.cons rfl (List.map_congr_left fun index _ => ?_)
  show (⟨tick, first + (index + 1)⟩ : Stamp) = ⟨tick, first + 1 + index⟩
  rw [Nat.add_comm index 1, Nat.add_assoc]

/-- Nothing is issued for a tick that is neither stored nor read. -/
theorem filter_issue_of_not_read {state : Stamp} {entered tick : Nat} {readings : List Nat}
    (sorted : readings.Pairwise (· ≤ ·)) (inRange : ∀ now ∈ readings, now < ticks)
    (notStored : state.tick ≠ tick) (notRead : tick ∉ readings) :
    (issue ticks counts fresh state entered readings).filter (fun stamp => stamp.tick = tick) =
      [] := by
  rw [List.filter_eq_nil_iff]
  intro stamp member
  rw [decide_eq_true_eq]
  rintro rfl
  rcases mem_issue sorted member with ⟨stored, _⟩ | ⟨now, read, _, isNow⟩
  · exact notStored stored.symm
  · rw [Nat.mod_eq_of_lt (inRange now read)] at isNow
    rw [isNow] at notRead
    exact notRead read

/-- The stored tick goes on counting until it is full. -/
theorem filter_issue_stored {state : Stamp} {entered : Nat} {readings : List Nat}
    (sorted : readings.Pairwise (· ≤ ·)) (inRange : ∀ now ∈ readings, now < ticks) :
    (issue ticks counts fresh state entered readings).filter
        (fun stamp => stamp.tick = state.tick) =
      countUp state.tick (state.count + 1)
        (min (readings.count state.tick) (counts - (state.count + 1))) := by
  induction readings generalizing state with
  | nil => simp [issue, countUp]
  | cons now rest inductionHypothesis =>
      obtain ⟨first, restSorted⟩ := List.pairwise_cons.mp sorted
      obtain ⟨nowFits, restFits⟩ := List.forall_mem_cons.mp inRange
      by_cases same : now = state.tick
      · rw [same, List.count_cons_self]
        by_cases room : state.count + 1 < counts
        · rw [issue_same rfl room, List.filter_cons_of_pos (by simp)]
          have later := @inductionHypothesis ⟨state.tick, state.count + 1⟩ restSorted restFits
          have split : min (rest.count state.tick + 1) (counts - (state.count + 1)) =
              min (rest.count state.tick) (counts - (state.count + 1 + 1)) + 1 := by
            omega
          rw [later, split, countUp_succ]
        · have full : counts - (state.count + 1) = 0 := by
            omega
          rw [issue_skip (by unfold Issues; omega), inductionHypothesis restSorted restFits, full,
            Nat.min_zero, Nat.min_zero]
      · rw [List.count_cons_of_ne same]
        by_cases later : state.tick < now
        · -- The clock has left the tick for good.
          have notRead : state.tick ∉ rest := by
            intro read
            have notBefore := first _ read
            omega
          have left : now % ticks ≠ state.tick := by
            rw [Nat.mod_eq_of_lt nowFits]
            exact same
          rw [issue_later later, List.filter_cons_of_neg (by simpa using left),
            filter_issue_of_not_read restSorted restFits left notRead,
            List.count_eq_zero_of_not_mem notRead, Nat.zero_min]
          rfl
        · rw [issue_skip (by unfold Issues; omega), inductionHypothesis restSorted restFits]

/-- How many ticks are entered before that one, from a stored tick on. -/
def ticksBefore (tick : Nat) : Nat → List Nat → Nat
  | _, [] => 0
  | stored, now :: rest =>
      if stored < now ∧ now < tick then ticksBefore tick now rest + 1
      else ticksBefore tick stored rest

theorem ticksBefore_eq_zero {tick stored : Nat} {readings : List Nat}
    (notBefore : ∀ now ∈ readings, tick ≤ now) : ticksBefore tick stored readings = 0 := by
  induction readings with
  | nil => rfl
  | cons now rest inductionHypothesis =>
      obtain ⟨first, restNotBefore⟩ := List.forall_mem_cons.mp notBefore
      rw [ticksBefore, if_neg (by omega), inductionHypothesis restNotBefore]

/-- Each of them is read, and so is the tick itself. -/
theorem ticksBefore_add_count_le (tick stored : Nat) (readings : List Nat) :
    ticksBefore tick stored readings + readings.count tick ≤ readings.length := by
  induction readings generalizing stored with
  | nil => exact Nat.le_refl 0
  | cons now rest inductionHypothesis =>
      rw [ticksBefore, List.length_cons, List.count_cons]
      by_cases enters : stored < now ∧ now < tick
      · have later := inductionHypothesis now
        have other : ¬ (now == tick) = true := by
          rw [beq_iff_eq]
          omega
        rw [if_pos enters, if_neg other]
        omega
      · have later := inductionHypothesis stored
        rw [if_neg enters]
        split <;> omega

/-- A tick that is read has been entered when a later one is. -/
theorem ticksBefore_lt {tick later stored : Nat} {readings : List Nat}
    (sorted : readings.Pairwise (· ≤ ·)) (fresh : stored < tick) (less : tick < later)
    (read : tick ∈ readings) : ticksBefore tick stored readings < ticksBefore later stored readings := by
  induction readings generalizing stored with
  | nil => cases read
  | cons now rest inductionHypothesis =>
      obtain ⟨first, restSorted⟩ := List.pairwise_cons.mp sorted
      rcases List.mem_cons.mp read with rfl | readLater
      · have none : ticksBefore tick stored (tick :: rest) = 0 :=
          ticksBefore_eq_zero (List.forall_mem_cons.mpr ⟨Nat.le_refl _, first⟩)
        rw [none, ticksBefore, if_pos ⟨fresh, less⟩]
        exact Nat.succ_pos _
      · have before := first tick readLater
        by_cases isTick : now = tick
        · have none : ticksBefore tick stored (now :: rest) = 0 :=
            ticksBefore_eq_zero (List.forall_mem_cons.mpr ⟨Nat.le_of_eq isTick.symm,
              fun other member => isTick ▸ first other member⟩)
          rw [none, ticksBefore, if_pos (by omega)]
          exact Nat.succ_pos _
        · rw [ticksBefore, ticksBefore]
          by_cases enters : stored < now
          · have continued := inductionHypothesis restSorted (by omega : now < tick) readLater
            rw [if_pos (by omega), if_pos (by omega)]
            omega
          · rw [if_neg (by omega), if_neg (by omega)]
            exact inductionHypothesis restSorted fresh readLater

/-- A tick that is entered counts from a fresh count on until it is full: as many stamps
as it is read, and as many as there is room for. The readings alone tell which fresh count
it gets. -/
theorem filter_issue_later (freshFits : ∀ index, fresh index < counts) {state : Stamp}
    {entered tick : Nat} (later : state.tick < tick) {readings : List Nat}
    (sorted : readings.Pairwise (· ≤ ·)) (inRange : ∀ now ∈ readings, now < ticks) :
    (issue ticks counts fresh state entered readings).filter (fun stamp => stamp.tick = tick) =
      countUp tick (fresh (entered + ticksBefore tick state.tick readings))
        (min (readings.count tick)
          (counts - fresh (entered + ticksBefore tick state.tick readings))) := by
  induction readings generalizing state entered with
  | nil => simp [issue, countUp]
  | cons now rest inductionHypothesis =>
      obtain ⟨first, restSorted⟩ := List.pairwise_cons.mp sorted
      obtain ⟨nowFits, restFits⟩ := List.forall_mem_cons.mp inRange
      have rolled : now % ticks = now := Nat.mod_eq_of_lt nowFits
      by_cases isTick : now = tick
      · -- The tick is entered here; the rest of it continues a stored tick.
        subst isTick
        have none : ticksBefore now state.tick (now :: rest) = 0 :=
          ticksBefore_eq_zero (List.forall_mem_cons.mpr ⟨Nat.le_refl _, first⟩)
        have fits := freshFits entered
        have continued := @filter_issue_stored ticks counts fresh ⟨now, fresh entered⟩
          (entered + 1) rest restSorted restFits
        have split : min (rest.count now + 1) (counts - fresh entered) =
            min (rest.count now) (counts - (fresh entered + 1)) + 1 := by
          omega
        rw [none, Nat.add_zero, issue_later later, rolled, List.filter_cons_of_pos (by simp),
          continued, List.count_cons_self, split, countUp_succ]
      · rw [List.count_cons_of_ne isTick, ticksBefore]
        by_cases entersOther : state.tick < now
        · rw [issue_later entersOther, rolled, List.filter_cons_of_neg (by simpa using isTick)]
          by_cases before : now < tick
          · have continued := @inductionHypothesis ⟨now, fresh entered⟩ (entered + 1) before
              restSorted restFits
            rw [if_pos ⟨entersOther, before⟩, Nat.add_comm (ticksBefore _ _ _), ← Nat.add_assoc]
            exact continued
          · have notRead : tick ∉ rest := by
              intro read
              have notBefore := first _ read
              omega
            rw [filter_issue_of_not_read restSorted restFits isTick notRead,
              List.count_eq_zero_of_not_mem notRead, Nat.zero_min]
            rfl
        · rw [if_neg (fun enters => entersOther enters.1)]
          by_cases issues : Issues counts state now
          · have same : now = state.tick ∧ state.count + 1 < counts := by
              unfold Issues at issues
              omega
            have notTick : state.tick ≠ tick := Nat.ne_of_lt later
            rw [issue_same same.1 same.2, List.filter_cons_of_neg (by simpa using notTick)]
            exact @inductionHypothesis ⟨state.tick, state.count + 1⟩ entered later restSorted
              restFits
          · rw [issue_skip issues]
            exact inductionHypothesis later restSorted restFits

end Ferroid.Library.TickCounter
