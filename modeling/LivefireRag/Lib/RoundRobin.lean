import Mathlib.Algebra.BigOperators.Group.Finset.Basic
import Mathlib.Algebra.Order.BigOperators.Group.Finset
import Mathlib.Data.Prod.Lex

/-!
# Filling cells row by row

Cells of bounded room lie in rows. A visit of a row gives one item to a cell of it that
has room: the least filled one, and the first of those filled alike. Sweeps visit all
rows in turn, and are repeated until a goal is reached, in the middle of a sweep if need
be (`Fill`).

A filling keeps to the room of every cell and counts what it gives (`Sound`), and a sweep
that gives nothing has found every row full (`Sweep.full`). How often a row is visited is
bounded both ways: a cell with room is served once its row has been visited as often as
the row has cells (`Fill.served`), and the last of a row's cells is not served before
(`Late`), nor is the last row visited more often than whole sweeps fit in the goal
(`Fill.last_row`).
-/

namespace RoundRobin

variable {ρ κ : Type} [LinearOrder κ]

/-- What every cell has been given, and how much has been given in all. -/
structure State (κ : Type) where
  filled : κ → ℕ
  total : ℕ

/-- One more item in a cell. -/
def State.give (s : State κ) (c : κ) : State κ :=
  ⟨Function.update s.filled c (s.filled c + 1), s.total + 1⟩

@[simp] theorem State.total_give (s : State κ) (c : κ) : (s.give c).total = s.total + 1 := rfl

@[simp] theorem State.filled_give_self (s : State κ) (c : κ) :
    (s.give c).filled c = s.filled c + 1 := Function.update_self ..

theorem State.filled_give_of_ne (s : State κ) {c d : κ} (h : d ≠ c) :
    (s.give c).filled d = s.filled d := Function.update_of_ne h ..

theorem State.filled_le_give (s : State κ) (c d : κ) : s.filled d ≤ (s.give c).filled d := by
  rcases eq_or_ne d c with rfl | hne
  · rw [s.filled_give_self]
    exact Nat.le_succ _
  · rw [s.filled_give_of_ne hne]

/-- A set of cells that holds the served one has one item more. -/
theorem State.sum_give (s : State κ) {cells : Finset κ} {c : κ} (h : c ∈ cells) :
    ∑ d ∈ cells, (s.give c).filled d = ∑ d ∈ cells, s.filled d + 1 := by
  rw [← Finset.add_sum_erase _ _ h, ← Finset.add_sum_erase _ s.filled h, s.filled_give_self,
    Finset.sum_congr rfl fun d hd => s.filled_give_of_ne (Finset.ne_of_mem_erase hd)]
  exact Nat.add_right_comm _ _ _

/-- Any other set of cells is left as it was. -/
theorem State.sum_give_of_notMem (s : State κ) {cells : Finset κ} {c : κ} (h : c ∉ cells) :
    ∑ d ∈ cells, (s.give c).filled d = ∑ d ∈ cells, s.filled d := by
  refine Finset.sum_congr rfl fun d hd => s.filled_give_of_ne ?_
  rintro rfl
  exact h hd

section Filling

variable (room : κ → ℕ) (row : ρ → Finset κ) (goal : ℕ)

/-- The cell a visit serves: it has room, and no cell with room comes before it by what
they have been given and then by their order. -/
structure Serves (s : State κ) (cells : Finset κ) (c : κ) : Prop where
  mem : c ∈ cells
  lt : s.filled c < room c
  least : ∀ d ∈ cells, s.filled d < room d → toLex (s.filled c, c) ≤ toLex (s.filled d, d)

/-- One visit of a row. -/
inductive Visit (r : ρ) : State κ → State κ → Prop
  | atGoal {s : State κ} (h : s.total = goal) : Visit r s s
  | full {s : State κ} (h : s.total ≠ goal) (hfull : ∀ c ∈ row r, room c ≤ s.filled c) : Visit r s s
  | give {s : State κ} {c : κ} (h : s.total ≠ goal) (hserves : Serves room s (row r) c) :
      Visit r s (s.give c)

/-- A visit of every row of a list, in turn. -/
inductive Sweep : List ρ → State κ → State κ → Prop
  | nil {s : State κ} : Sweep [] s s
  | cons {r : ρ} {rows : List ρ} {s s' s'' : State κ} (hvisit : Visit room row goal r s s')
      (hrest : Sweep rows s' s'') : Sweep (r :: rows) s s''

/-- Sweeps until the goal is reached, each of which gives something. -/
inductive Fill (rows : List ρ) : State κ → State κ → Prop
  | done {s : State κ} (h : s.total = goal) : Fill rows s s
  | sweep {s s' s'' : State κ} (h : s.total < goal) (hsweep : Sweep room row goal rows s s')
      (hmore : s.total < s'.total) (hrest : Fill rows s' s'') : Fill rows s s''

end Filling

variable {room : κ → ℕ} {row : ρ → Finset κ} {goal : ℕ} {r : ρ} {rows : List ρ}
  {s s' : State κ}

/-! ### What every visit preserves -/

theorem Sweep.concat (h : Sweep room row goal rows s s') {s'' : State κ}
    (hvisit : Visit room row goal r s' s'') : Sweep room row goal (rows ++ [r]) s s'' := by
  induction h with
  | nil => exact .cons hvisit .nil
  | cons hfirst _ ih => exact .cons hfirst (ih hvisit)

theorem Sweep.of_concat (h : Sweep room row goal (rows ++ [r]) s s') :
    ∃ t, Sweep room row goal rows s t ∧ Visit room row goal r t s' := by
  induction rows generalizing s with
  | nil =>
    obtain _ | ⟨hvisit, ⟨⟩⟩ := h
    exact ⟨s, .nil, hvisit⟩
  | cons first rows ih =>
    obtain _ | ⟨hfirst, hrest⟩ := h
    obtain ⟨t, hsweep, hvisit⟩ := ih hrest
    exact ⟨t, .cons hfirst hsweep, hvisit⟩

theorem Sweep.preserves {P : State κ → Prop} (h : Sweep room row goal rows s s')
    (hvisit : ∀ r ∈ rows, ∀ t t', Visit room row goal r t t' → P t → P t') (hs : P s) : P s' := by
  induction h with
  | nil => exact hs
  | cons hfirst _ ih =>
    exact ih (fun r hr => hvisit r (List.mem_cons_of_mem _ hr))
      (hvisit _ List.mem_cons_self _ _ hfirst hs)

theorem Fill.preserves {P : State κ → Prop} (h : Fill room row goal rows s s')
    (hvisit : ∀ r ∈ rows, ∀ t t', Visit room row goal r t t' → P t → P t') (hs : P s) : P s' := by
  induction h with
  | done => exact hs
  | sweep _ hsweep _ _ ih => exact ih (hsweep.preserves hvisit hs)

theorem Visit.filled_le (h : Visit room row goal r s s') (c : κ) : s.filled c ≤ s'.filled c := by
  cases h with
  | atGoal | full => exact le_rfl
  | give => exact s.filled_le_give _ c

theorem Visit.total_le (h : Visit room row goal r s s') : s.total ≤ s'.total := by
  cases h with
  | atGoal | full => exact le_rfl
  | give => exact Nat.le_succ _

theorem Visit.total_le_succ (h : Visit room row goal r s s') : s'.total ≤ s.total + 1 := by
  cases h with
  | atGoal | full => exact Nat.le_succ _
  | give => exact le_rfl

/-- The goal is not passed. -/
theorem Visit.le_goal (h : Visit room row goal r s s') (hs : s.total ≤ goal) : s'.total ≤ goal := by
  cases h with
  | atGoal | full => exact hs
  | give h => exact lt_of_le_of_ne hs h

theorem Sweep.total_le (h : Sweep room row goal rows s s') : s.total ≤ s'.total :=
  h.preserves (P := fun t => s.total ≤ t.total) (fun _ _ _ _ hvisit ht => ht.trans hvisit.total_le)
    le_rfl

theorem Sweep.total_le_add (h : Sweep room row goal rows s s') :
    s'.total ≤ s.total + rows.length := by
  induction h with
  | nil => exact le_rfl
  | cons hvisit _ ih =>
    have hstep := hvisit.total_le_succ
    rw [List.length_cons]
    omega

theorem Sweep.le_goal (h : Sweep room row goal rows s s') (hs : s.total ≤ goal) :
    s'.total ≤ goal :=
  h.preserves (P := fun t => t.total ≤ goal) (fun _ _ _ _ hvisit => hvisit.le_goal) hs

theorem Fill.filled_le (h : Fill room row goal rows s s') (c : κ) : s.filled c ≤ s'.filled c :=
  h.preserves (P := fun t => s.filled c ≤ t.filled c)
    (fun _ _ _ _ hvisit ht => ht.trans (hvisit.filled_le c)) le_rfl

theorem Fill.total_eq (h : Fill room row goal rows s s') : s'.total = goal := by
  induction h with
  | done h => exact h
  | sweep _ _ _ _ ih => exact ih

/-- No cell is given more than it has room for, and the total is what the cells have
been given. -/
structure Sound (room : κ → ℕ) (cells : Finset κ) (s : State κ) : Prop where
  fits : ∀ c ∈ cells, s.filled c ≤ room c
  total : ∑ c ∈ cells, s.filled c = s.total

theorem Visit.sound {cells : Finset κ} (h : Visit room row goal r s s') (hrow : row r ⊆ cells)
    (hs : Sound room cells s) : Sound room cells s' := by
  cases h with
  | atGoal | full => exact hs
  | @give c _ hserves =>
    refine ⟨fun d hd => ?_, ?_⟩
    · rcases eq_or_ne d c with rfl | hne
      · rw [s.filled_give_self]
        exact hserves.lt
      · rw [s.filled_give_of_ne hne]
        exact hs.fits d hd
    · rw [s.sum_give (hrow hserves.mem), hs.total, s.total_give]

/-- A sweep short of the goal that gives nothing has found every row full. -/
theorem Sweep.full (h : Sweep room row goal rows s s') (hgoal : s.total ≠ goal)
    (htotal : s'.total = s.total) : ∀ r ∈ rows, ∀ c ∈ row r, room c ≤ s.filled c := by
  induction h with
  | nil => exact fun r hr => absurd hr List.not_mem_nil
  | cons hvisit hrest ih =>
    cases hvisit with
    | atGoal h => exact absurd h hgoal
    | full _ hfull => exact List.forall_mem_cons.mpr ⟨hfull, ih hgoal htotal⟩
    | give =>
      -- something has been given, and a total does not shrink
      have hle := hrest.total_le
      rw [htotal, State.total_give] at hle
      exact absurd hle (Nat.not_succ_le_self _)

/-! ### Every cell is served in time -/

/-- While the cell has been given nothing, its row has been given `k` items and no cell
of it more than one. -/
def Served (cells : Finset κ) (c : κ) (k : ℕ) (s : State κ) : Prop :=
  s.filled c = 0 → k ≤ ∑ d ∈ cells, s.filled d ∧ ∀ d ∈ cells, s.filled d ≤ 1

omit [LinearOrder κ] in
theorem Served.mono {cells : Finset κ} {c : κ} {k l : ℕ} (h : Served cells c k s) (hle : l ≤ k) :
    Served cells c l s :=
  fun hzero => ⟨hle.trans (h hzero).1, (h hzero).2⟩

/-- As many items as the row has cells are too many for one cell to have none. -/
theorem Served.pos {cells : Finset κ} {c : κ} (h : Served cells c cells.card s) (hc : c ∈ cells) :
    0 < s.filled c := by
  rw [Nat.pos_iff_ne_zero]
  intro hzero
  obtain ⟨hcard, hone⟩ := h hzero
  have hrest : ∑ d ∈ cells.erase c, s.filled d ≤ (cells.erase c).card := by
    calc ∑ d ∈ cells.erase c, s.filled d
        ≤ ∑ _d ∈ cells.erase c, 1 :=
          Finset.sum_le_sum fun d hd => hone d (Finset.mem_of_mem_erase hd)
      _ = (cells.erase c).card := (Finset.card_eq_sum_ones _).symm
  rw [← Finset.add_sum_erase _ _ hc, hzero, Nat.zero_add] at hcard
  have hlt := Finset.card_erase_lt_of_mem hc
  omega

/-- A visit of the cell's own row, short of the goal. -/
theorem Visit.served {c : κ} {k : ℕ} (h : Visit room row goal r s s') (hc : c ∈ row r)
    (hroom : 0 < room c) (hgoal : s.total ≠ goal) (hs : Served (row r) c k s) :
    Served (row r) c (k + 1) s' := by
  intro hzero
  cases h with
  | atGoal h => exact absurd h hgoal
  | full _ hfull =>
    have hle := hfull c hc
    omega
  | @give d _ hserves =>
    have hne : c ≠ d := by
      rintro rfl
      rw [s.filled_give_self] at hzero
      exact Nat.succ_ne_zero _ hzero
    rw [s.filled_give_of_ne hne] at hzero
    obtain ⟨hsum, hone⟩ := hs hzero
    -- the cell itself has room, so the one that is served had nothing either
    have hleast := hserves.least c hc (hzero ▸ hroom)
    rw [hzero, Prod.Lex.toLex_le_toLex] at hleast
    have hempty : s.filled d = 0 := by omega
    refine ⟨?_, fun e he => ?_⟩
    · rw [s.sum_give hserves.mem]
      exact Nat.succ_le_succ hsum
    · rcases eq_or_ne e d with rfl | hne
      · rw [s.filled_give_self, hempty]
      · rw [s.filled_give_of_ne hne]
        exact hone e he

/-- A visit of another row changes nothing in this one. -/
theorem Visit.filled_eq {other : ρ} (h : Visit room row goal other s s')
    (hdisjoint : Disjoint (row other) (row r)) {c : κ} (hc : c ∈ row r) :
    s'.filled c = s.filled c := by
  cases h with
  | atGoal | full => rfl
  | @give d _ hserves =>
    refine s.filled_give_of_ne ?_
    rintro rfl
    exact Finset.disjoint_left.mp hdisjoint hserves.mem hc

theorem Visit.served_of_disjoint {other : ρ} (h : Visit room row goal other s s')
    (hdisjoint : Disjoint (row other) (row r)) {c : κ} (hc : c ∈ row r) {k : ℕ}
    (hs : Served (row r) c k s) : Served (row r) c k s' := by
  intro hzero
  rw [h.filled_eq hdisjoint hc] at hzero
  have hsame : ∀ d ∈ row r, s'.filled d = s.filled d := fun d hd => h.filled_eq hdisjoint hd
  obtain ⟨hsum, hone⟩ := hs hzero
  exact ⟨(Finset.sum_congr rfl hsame).symm ▸ hsum, fun d hd => (hsame d hd).symm ▸ hone d hd⟩

section Disjoint

variable (hdisjoint : ∀ other, other ≠ r → Disjoint (row other) (row r))
include hdisjoint

/-- No visit takes back what the row has been given. -/
theorem Visit.served_of_any {other : ρ} (h : Visit room row goal other s s') {c : κ}
    (hc : c ∈ row r) (hroom : 0 < room c) {k : ℕ} (hs : Served (row r) c k s) :
    Served (row r) c k s' := by
  rcases eq_or_ne other r with rfl | hne
  · by_cases hgoal : s.total = goal
    · cases h with
      | atGoal | full => exact hs
      | give h => exact absurd hgoal h
    · exact (h.served hc hroom hgoal hs).mono (Nat.le_succ k)
  · exact h.served_of_disjoint (hdisjoint other hne) hc hs

/-- A sweep that does not reach the goal early visits every row. -/
theorem Sweep.served (h : Sweep room row goal rows s s') (hr : r ∈ rows) {c : κ}
    (hc : c ∈ row r) (hroom : 0 < room c) (hgoal : s.total + rows.length ≤ goal) {k : ℕ}
    (hs : Served (row r) c k s) : Served (row r) c (k + 1) s' := by
  induction h with
  | nil => exact absurd hr List.not_mem_nil
  | @cons first rows s s₁ s' hvisit hrest ih =>
    rw [List.length_cons] at hgoal
    rcases eq_or_ne first r with rfl | hne
    · exact hrest.preserves (P := Served (row first) c (k + 1))
        (fun _ _ _ _ hvisit => hvisit.served_of_any hdisjoint hc hroom)
        (hvisit.served hc hroom (by omega) hs)
    · have hstep := hvisit.total_le_succ
      exact ih ((List.mem_cons.mp hr).resolve_left hne.symm) (by omega)
        (hvisit.served_of_disjoint (hdisjoint first hne) hc hs)

/-- **A row is visited once for every whole sweep that fits in the goal.** -/
theorem Fill.served (h : Fill room row goal rows s s') (hr : r ∈ rows) {c : κ} (hc : c ∈ row r)
    (hroom : 0 < room c) {k : ℕ} (hs : Served (row r) c k s) :
    Served (row r) c (k + (goal - s.total) / rows.length) s' := by
  have hpos : 0 < rows.length := List.length_pos_of_mem hr
  induction h generalizing k with
  | done h =>
    rw [h, Nat.sub_self, Nat.zero_div]
    exact hs
  | @sweep s s₁ s' hlt hsweep hmore hrest ih =>
    by_cases hgoal : s.total + rows.length ≤ goal
    · refine (ih (hsweep.served hdisjoint hr hc hroom hgoal hs)).mono ?_
      -- what is left after the sweep is at least what was left, less one for each row
      have hle : goal - s.total - rows.length ≤ goal - s₁.total := by
        have hstep := hsweep.total_le_add
        omega
      calc k + (goal - s.total) / rows.length
          = k + ((goal - s.total - rows.length) / rows.length + 1) := by
            rw [Nat.div_eq_sub_div hpos (by omega)]
        _ ≤ k + ((goal - s₁.total) / rows.length + 1) :=
            Nat.add_le_add_left (Nat.succ_le_succ (Nat.div_le_div_right hle)) k
        _ = k + 1 + (goal - s₁.total) / rows.length := by rw [Nat.add_right_comm, Nat.add_assoc]
    · -- the last sweep, which may end before the row
      refine (ih (hsweep.preserves (P := Served (row r) c k)
        (fun _ _ _ _ hvisit => hvisit.served_of_any hdisjoint hc hroom) hs)).mono ?_
      rw [Nat.div_eq_of_lt (by omega)]
      exact Nat.add_le_add_left (Nat.zero_le _) k

end Disjoint

/-! ### No cell is served early -/

/-- What a row has been given. -/
def rowTotal (row : ρ → Finset κ) (r : ρ) (s : State κ) : ℕ := ∑ c ∈ row r, s.filled c

/-- The cell has nothing while its row has been given no more than `n` items. -/
def Late (row : ρ → Finset κ) (r : ρ) (c : κ) (n : ℕ) (s : State κ) : Prop :=
  rowTotal row r s ≤ n → s.filled c = 0

theorem Visit.rowTotal_le (h : Visit room row goal r s s') (other : ρ) :
    rowTotal row other s ≤ rowTotal row other s' :=
  Finset.sum_le_sum fun c _ => h.filled_le c

/-- The last cell of a row waits for all the others, when these have room. -/
theorem Visit.late {other : ρ} (h : Visit room row goal other s s') {c : κ}
    (hlast : ∀ d ∈ row r, d ≠ c → d < c ∧ 0 < room d) {n : ℕ}
    (hn : n ≤ ((row r).erase c).card) (hcell : c ∈ row other → other = r)
    (hs : Late row r c n s) : Late row r c n s' := by
  intro htotal
  have hbefore : s.filled c = 0 := hs ((h.rowTotal_le r).trans htotal)
  cases h with
  | atGoal | full => exact hbefore
  | @give d _ hserves =>
    by_cases heq : d = c
    · subst heq
      obtain rfl := hcell hserves.mem
      exfalso
      -- some other cell has nothing, and comes first
      rw [rowTotal, s.sum_give hserves.mem, ← Finset.add_sum_erase _ _ hserves.mem, hbefore] at htotal
      have hnone : ∃ e ∈ (row other).erase d, s.filled e < 1 := by
        refine Finset.exists_lt_of_sum_lt ?_
        rw [← Finset.card_eq_sum_ones]
        omega
      obtain ⟨e, he, hzero⟩ := hnone
      obtain ⟨hne, hmem⟩ := Finset.mem_erase.mp he
      obtain ⟨hlt, hroom⟩ := hlast e hmem hne
      have hleast := hserves.least e hmem (by omega)
      rw [hbefore, Nat.lt_one_iff.mp hzero, Prod.Lex.toLex_le_toLex] at hleast
      rcases hleast with hless | ⟨-, hle⟩
      · exact absurd hless (lt_irrefl 0)
      · exact absurd hlt (not_lt.mpr hle)
    · rw [s.filled_give_of_ne (Ne.symm heq)]
      exact hbefore

section Disjoint

variable (hdisjoint : Pairwise fun r other => Disjoint (row r) (row other))
include hdisjoint

/-- A visit gives one item to a row with room, and none to any other row. -/
theorem Visit.give_one (h : Visit room row goal r s s') (hgoal : s.total ≠ goal)
    (hroom : rowTotal row r s < ∑ c ∈ row r, room c) :
    s'.total = s.total + 1 ∧ rowTotal row r s' = rowTotal row r s + 1 ∧
      ∀ other, other ≠ r → rowTotal row other s' = rowTotal row other s := by
  cases h with
  | atGoal h => exact absurd h hgoal
  | full _ hfull =>
    have hle : ∑ c ∈ row r, room c ≤ rowTotal row r s := Finset.sum_le_sum hfull
    exact absurd hroom (not_lt.mpr hle)
  | @give c _ hserves =>
    refine ⟨rfl, s.sum_give hserves.mem, fun other hne => s.sum_give_of_notMem ?_⟩
    exact Finset.disjoint_right.mp (hdisjoint hne) hserves.mem

/-- A sweep of rows with room gives every row one item until the goal is reached. -/
theorem Sweep.even (h : Sweep room row goal rows s s') (hnodup : rows.Nodup)
    (hgoal : s.total ≤ goal) (hroom : ∀ r ∈ rows, rowTotal row r s < ∑ c ∈ row r, room c) :
    s'.total = min goal (s.total + rows.length) ∧
      (∀ r ∈ rows, rowTotal row r s' ≤ rowTotal row r s + 1) ∧
      ∀ r ∉ rows, rowTotal row r s' = rowTotal row r s := by
  induction h with
  | nil => exact ⟨(min_eq_right hgoal).symm, fun r hr => absurd hr List.not_mem_nil, fun _ _ => rfl⟩
  | @cons first rows s s₁ s' hvisit hrest ih =>
    obtain ⟨hfirst, hnodup⟩ := List.nodup_cons.mp hnodup
    obtain ⟨hroomFirst, hroom⟩ := List.forall_mem_cons.mp hroom
    by_cases hdone : s.total = goal
    · -- nothing is given any more
      obtain rfl : s = s₁ := by
        cases hvisit with
        | atGoal | full => rfl
        | give h => exact absurd hdone h
      obtain ⟨htotal, hrows, hothers⟩ := ih hnodup hgoal hroom
      refine ⟨?_, List.forall_mem_cons.mpr ⟨?_, hrows⟩, fun r hr => ?_⟩
      · rw [htotal, List.length_cons]
        omega
      · rw [hothers first hfirst]
        exact Nat.le_succ _
      · exact hothers r fun hmem => hr (List.mem_cons_of_mem _ hmem)
    · obtain ⟨hgiven, hone, hsame⟩ := hvisit.give_one hdisjoint hdone hroomFirst
      have hne : ∀ r ∈ rows, r ≠ first := fun r hr heq => hfirst (heq ▸ hr)
      obtain ⟨htotal, hrows, hothers⟩ := ih hnodup (hvisit.le_goal hgoal) fun r hr => by
        rw [hsame r (hne r hr)]
        exact hroom r hr
      refine ⟨?_, List.forall_mem_cons.mpr ⟨?_, fun r hr => ?_⟩, fun r hr => ?_⟩
      · rw [htotal, hgiven, List.length_cons]
        omega
      · rw [hothers first hfirst, hone]
      · rw [← hsame r (hne r hr)]
        exact hrows r hr
      · rw [List.mem_cons, not_or] at hr
        rw [hothers r hr.2, hsame r hr.1]

/-- The last row is given an item only when all the others have been given one. -/
theorem Sweep.last_row (h : Sweep room row goal (rows ++ [r]) s s') (hnodup : (rows ++ [r]).Nodup)
    (hgoal : s.total ≤ goal)
    (hroom : ∀ r ∈ rows, rowTotal row r s < ∑ c ∈ row r, room c)
    (hshort : goal < s.total + (rows ++ [r]).length) : rowTotal row r s' = rowTotal row r s := by
  obtain ⟨t, hsweep, hvisit⟩ := h.of_concat
  rw [List.length_append, List.length_singleton] at hshort
  obtain ⟨hnodup, -, hnotin⟩ := List.nodup_append.mp hnodup
  obtain ⟨htotal, -, hothers⟩ := hsweep.even hdisjoint hnodup hgoal hroom
  have hdone : t.total = goal := by omega
  cases hvisit with
  | atGoal | full => exact hothers r fun hr => hnotin r hr r (List.mem_singleton_self r) rfl
  | give hmore => exact absurd hdone hmore

/-- **The last row is visited no more often than whole sweeps fit in the goal**, as long as
no row is full. -/
theorem Fill.last_row (h : Fill room row goal (rows ++ [r]) s s') (hnodup : (rows ++ [r]).Nodup)
    (hgoal : s.total ≤ goal)
    (hroom : ∀ other ∈ rows ++ [r], rowTotal row other s +
      (goal - s.total) / (rows ++ [r]).length < ∑ c ∈ row other, room c) :
    rowTotal row r s' ≤ rowTotal row r s + (goal - s.total) / (rows ++ [r]).length ∧
      ∀ other ∈ rows ++ [r], rowTotal row other s' ≤ rowTotal row other s +
        (goal - s.total) / (rows ++ [r]).length + 1 := by
  have hpos : 0 < (rows ++ [r]).length := List.length_pos_of_mem (List.mem_concat_self)
  induction h with
  | done =>
    exact ⟨Nat.le_add_right _ _, fun other _ => (Nat.le_add_right _ _).trans (Nat.le_succ _)⟩
  | @sweep s s₁ s' hlt hsweep hmore hrest ih =>
    have hroomNow : ∀ other ∈ rows ++ [r], rowTotal row other s < ∑ c ∈ row other, room c :=
      fun other hother => (Nat.le_add_right _ _).trans_lt (hroom other hother)
    obtain ⟨htotal, hone, -⟩ := hsweep.even hdisjoint hnodup hgoal hroomNow
    by_cases hwhole : s.total + (rows ++ [r]).length ≤ goal
    · -- a whole sweep takes its share of what is left
      rw [min_eq_right hwhole] at htotal
      have hdiv : (goal - s.total) / (rows ++ [r]).length =
          (goal - s₁.total) / (rows ++ [r]).length + 1 := by
        rw [Nat.div_eq_sub_div hpos (by omega), htotal, Nat.sub_add_eq]
      obtain ⟨hlast, hothers⟩ := ih (htotal ▸ hwhole) fun other hother => by
        have hgiven := hone other hother
        have hbound := hroom other hother
        omega
      refine ⟨?_, fun other hother => ?_⟩
      · have hgiven := hone r List.mem_concat_self
        omega
      · have hgiven := hone other hother
        have hbound := hothers other hother
        omega
    · -- the goal is reached before the last row
      have hsame := hsweep.last_row hdisjoint hnodup hgoal
        (fun other hother => hroomNow other (List.mem_append_left _ hother)) (by omega)
      have hdone : s₁.total = goal := by omega
      obtain rfl : s₁ = s' := by
        cases hrest with
        | done => rfl
        | sweep h => exact absurd hdone h.ne
      exact ⟨hsame.le.trans (Nat.le_add_right _ _), fun other hother =>
        (hone other hother).trans (Nat.succ_le_succ (Nat.le_add_right _ _))⟩

end Disjoint

end RoundRobin
