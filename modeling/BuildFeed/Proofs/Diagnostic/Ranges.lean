-- The order of a range. Of lines and of columns alike a position knows up to three: where it starts,
-- the coarse one, and where it ends. What is not known falls back on the coarse one and then on the
-- start, so a range never stands the wrong way round if what is known does not.
import Mathlib.Data.List.ReduceOption
import BuildFeed.Diagnostic
import BuildFeed.Proofs.Number.Whole

namespace BuildFeed

/-! ## What a position knows -/

/-- An integer from `least` on, and not too large to be exact. -/
def Number.CountsFrom (least : Int) (x : Number) : Prop :=
  ∃ n : Int, x = .ofInt n ∧ least ≤ n ∧ n ≤ Number.wholeReach

/-- The lines that a position knows, from the start to the end. -/
def Position.lines (p : Position) : List Number := [p.startLine, p.line, p.endLine].reduceOption

/-- The columns that a position knows, from the start to the end. -/
def Position.columns (p : Position) : List Number :=
  [p.startColumn, p.pointer, p.endColumn].reduceOption

/-- All that a position knows are integers, lines from 1 on and columns from 0 on. -/
structure Position.Counted (p : Position) : Prop where
  lines : ∀ x ∈ p.lines, x.CountsFrom 1
  columns : ∀ x ∈ p.columns, x.CountsFrom 0

/-- One place is the other or stands before it. -/
def Point.NotAfter (a b : Point) : Prop :=
  a.line ≤ b.line ∧ a.line ≠ b.line ∨ a.line = b.line ∧ a.character ≤ b.character

/-! ## Numbers that count -/

namespace Number.CountsFrom

variable {least : Int} {x y : Number}

theorem zero : CountsFrom 0 0 := ⟨0, rfl, by decide, Int.natCast_nonneg _⟩

theorem ofInt_le_iff {m n : Int} (hm : 0 ≤ m ∧ m ≤ wholeReach) (hn : 0 ≤ n ∧ n ≤ wholeReach) :
    ofInt m ≤ ofInt n ↔ m ≤ n :=
  ofInt_le_ofInt (by omega) (by omega)

theorem nonneg (h : x.CountsFrom 0) : 0 ≤ x := by
  obtain ⟨n, hx, hleast, hmost⟩ := h
  rw [hx]
  exact (ofInt_le_iff ⟨Int.le_refl 0, Int.natCast_nonneg _⟩ ⟨hleast, hmost⟩).mpr hleast

theorem le_refl (h : x.CountsFrom 0) : x ≤ x := by
  obtain ⟨n, hx, hleast, hmost⟩ := h
  rw [hx]
  exact (ofInt_le_iff ⟨hleast, hmost⟩ ⟨hleast, hmost⟩).mpr (Int.le_refl n)

theorem lineFromZero_ofInt {n : Int} (h : 1 ≤ n ∧ n ≤ wholeReach) :
    lineFromZero (ofInt n) = ofInt (n - 1) :=
  ofInt_sub_ofInt (by omega) (Nat.one_le_two_pow)

/-- Counted from zero, a line is exactly one less. -/
theorem lineFromZero (h : x.CountsFrom 1) : (lineFromZero x).CountsFrom 0 := by
  obtain ⟨n, hx, hleast, hmost⟩ := h
  rw [hx, lineFromZero_ofInt ⟨hleast, hmost⟩]
  exact ⟨n - 1, rfl, by omega, by omega⟩

theorem lineFromZero_le (hx : x.CountsFrom 1) (hy : y.CountsFrom 1) (h : x ≤ y) :
    BuildFeed.lineFromZero x ≤ BuildFeed.lineFromZero y := by
  obtain ⟨m, hxm, hm, hm'⟩ := hx
  obtain ⟨n, hyn, hn, hn'⟩ := hy
  rw [hxm, hyn] at h ⊢
  have hle : m ≤ n := (ofInt_le_iff ⟨by omega, hm'⟩ ⟨by omega, hn'⟩).mp h
  rw [lineFromZero_ofInt ⟨hm, hm'⟩, lineFromZero_ofInt ⟨hn, hn'⟩]
  exact (ofInt_le_iff ⟨by omega, by omega⟩ ⟨by omega, by omega⟩).mpr (by omega)

end Number.CountsFrom

/-! ## Fallbacks -/

variable {first coarse last : Option Number}

/-- Where a stretch starts, of which the start, a coarse place and the end may be known. -/
def startOf (first coarse : Option Number) : Number := (first.or coarse).getD 0

/-- Where it ends. -/
def stopOf (first coarse last : Option Number) : Number :=
  (last.or coarse).getD (startOf first coarse)

theorem startOf_none : startOf none none = 0 := by simp [startOf]

theorem startOf_some (x : Number) : startOf (some x) coarse = x := by simp [startOf]

theorem startOf_none_some (x : Number) : startOf none (some x) = x := by simp [startOf]

theorem stopOf_none : stopOf first none none = startOf first none := by simp [stopOf]

theorem stopOf_some (x : Number) : stopOf first coarse (some x) = x := by simp [stopOf]

theorem stopOf_some_none (x : Number) : stopOf first (some x) none = x := by simp [stopOf]

theorem countsFrom_startOf (h : ∀ x ∈ [first, coarse, last].reduceOption, x.CountsFrom 0) :
    (startOf first coarse).CountsFrom 0 := by
  cases first with
  | some x =>
    rw [startOf_some]
    exact h x (by simp)
  | none =>
    cases coarse with
    | some x =>
      rw [startOf_none_some]
      exact h x (by simp)
    | none =>
      rw [startOf_none]
      exact .zero

theorem countsFrom_stopOf (h : ∀ x ∈ [first, coarse, last].reduceOption, x.CountsFrom 0) :
    (stopOf first coarse last).CountsFrom 0 := by
  cases last with
  | some x =>
    rw [stopOf_some]
    exact h x (by simp [List.reduceOption_mem_iff])
  | none =>
    cases coarse with
    | some x =>
      rw [stopOf_some_none]
      exact h x (by simp [List.reduceOption_mem_iff])
    | none =>
      rw [stopOf_none]
      exact countsFrom_startOf h

/-- A stretch stands the right way round if what is known of it does. -/
theorem startOf_le_stopOf (h : ∀ x ∈ [first, coarse, last].reduceOption, x.CountsFrom 0)
    (ho : [first, coarse, last].reduceOption.Pairwise (· ≤ ·)) :
    startOf first coarse ≤ stopOf first coarse last := by
  have hstart := countsFrom_startOf h
  have hstop := countsFrom_stopOf h
  cases coarse with
  | none =>
    cases last with
    | none =>
      rw [stopOf_none]
      exact hstart.le_refl
    | some l =>
      cases first with
      | none =>
        rw [startOf_none]
        exact hstop.nonneg
      | some f =>
        rw [startOf_some, stopOf_some]
        exact List.rel_of_pairwise_cons ho (by simp)
  | some c =>
    cases first with
    | none =>
      rw [startOf_none_some] at hstart ⊢
      cases last with
      | none =>
        rw [stopOf_some_none]
        exact hstart.le_refl
      | some l =>
        rw [stopOf_some]
        exact List.rel_of_pairwise_cons ho (by simp)
    | some f =>
      rw [startOf_some]
      cases last with
      | none =>
        rw [stopOf_some_none]
        exact List.rel_of_pairwise_cons ho (by simp)
      | some l =>
        rw [stopOf_some]
        exact List.rel_of_pairwise_cons ho (by simp)

/-- Without an end, and with no more than one place besides, a stretch is a point. -/
theorem startOf_eq_stopOf (h : first = none ∨ coarse = none) :
    startOf first coarse = stopOf first coarse none := by
  cases coarse with
  | none => rw [stopOf_none]
  | some c =>
    obtain rfl : first = none := h.resolve_right (by simp)
    rw [startOf_none_some, stopOf_some_none]

/-! ## Ranges -/

namespace Range

/-- A line is counted from zero wherever it comes from. -/
theorem ofPosition_eq (p : Position) :
    ofPosition p =
      { start := ⟨startOf (p.startLine.map lineFromZero) (p.line.map lineFromZero),
          startOf p.startColumn p.pointer⟩
        stop := ⟨stopOf (p.startLine.map lineFromZero) (p.line.map lineFromZero)
            (p.endLine.map lineFromZero),
          stopOf p.startColumn p.pointer p.endColumn⟩ } := rfl

theorem lines_map (p : Position) :
    [p.startLine.map lineFromZero, p.line.map lineFromZero,
      p.endLine.map lineFromZero].reduceOption = p.lines.map lineFromZero :=
  List.reduceOption_map (l := [p.startLine, p.line, p.endLine])

theorem countsFrom_lines {p : Position} (h : p.Counted) :
    ∀ x ∈ [p.startLine.map lineFromZero, p.line.map lineFromZero,
      p.endLine.map lineFromZero].reduceOption, x.CountsFrom 0 := by
  intro x hx
  rw [lines_map, List.mem_map] at hx
  obtain ⟨line, hline, rfl⟩ := hx
  exact (h.lines line hline).lineFromZero

theorem pairwise_lines {p : Position} (h : p.Counted) (ho : p.lines.Pairwise (· ≤ ·)) :
    [p.startLine.map lineFromZero, p.line.map lineFromZero,
      p.endLine.map lineFromZero].reduceOption.Pairwise (· ≤ ·) := by
  rw [lines_map, List.pairwise_map]
  exact ho.imp_of_mem fun hx hy hle => (h.lines _ hx).lineFromZero_le (h.lines _ hy) hle

/-! ## The law -/

/-- A range has no place below zero. Its lines stand the right way round if the known lines do, its
characters if the known columns do, and the whole range if its lines do and are apart or its columns
do as well. Without an end, and with no more than one place besides, it is a point. Lines come from
lines alone and characters from columns alone. -/
theorem a_range_stands_as_its_position_does :
    (∀ p : Position, p.Counted →
      let r := ofPosition p
      (0 ≤ r.start.line ∧ 0 ≤ r.stop.line ∧ 0 ≤ r.start.character ∧ 0 ≤ r.stop.character) ∧
      (p.lines.Pairwise (· ≤ ·) → r.start.line ≤ r.stop.line) ∧
      (p.columns.Pairwise (· ≤ ·) → r.start.character ≤ r.stop.character) ∧
      (p.lines.Pairwise (· ≤ ·) →
        r.start.line ≤ r.stop.line ∧ r.start.line ≠ r.stop.line ∨ p.columns.Pairwise (· ≤ ·) →
        r.start.NotAfter r.stop)) ∧
    (∀ p : Position,
      (p.endLine = none → p.startLine = none ∨ p.line = none →
        (ofPosition p).start.line = (ofPosition p).stop.line) ∧
      (p.endColumn = none → p.startColumn = none ∨ p.pointer = none →
        (ofPosition p).start.character = (ofPosition p).stop.character)) ∧
    (∀ p q : Position,
      (p.startLine = q.startLine → p.line = q.line → p.endLine = q.endLine →
        (ofPosition p).start.line = (ofPosition q).start.line ∧
          (ofPosition p).stop.line = (ofPosition q).stop.line) ∧
      (p.startColumn = q.startColumn → p.pointer = q.pointer → p.endColumn = q.endColumn →
        (ofPosition p).start.character = (ofPosition q).start.character ∧
          (ofPosition p).stop.character = (ofPosition q).stop.character)) := by
  refine ⟨?_, ?_, ?_⟩
  · intro p hp r
    have hlines := countsFrom_lines hp
    have hcolumns := hp.columns
    have hline : p.lines.Pairwise (· ≤ ·) → r.start.line ≤ r.stop.line :=
      fun ho => startOf_le_stopOf hlines (pairwise_lines hp ho)
    have hcharacter : p.columns.Pairwise (· ≤ ·) → r.start.character ≤ r.stop.character :=
      fun ho => startOf_le_stopOf hcolumns ho
    refine ⟨⟨(countsFrom_startOf hlines).nonneg, (countsFrom_stopOf hlines).nonneg,
      (countsFrom_startOf hcolumns).nonneg, (countsFrom_stopOf hcolumns).nonneg⟩,
      hline, hcharacter, ?_⟩
    intro ho happart
    by_cases heq : r.start.line = r.stop.line
    · rcases happart with ⟨-, hne⟩ | hcols
      · exact absurd heq hne
      · exact .inr ⟨heq, hcharacter hcols⟩
    · exact .inl ⟨hline ho, heq⟩
  · intro p
    constructor
    · intro hend h
      rw [ofPosition_eq, hend]
      exact startOf_eq_stopOf (h.imp (congrArg _) (congrArg _))
    · intro hend h
      rw [ofPosition_eq, hend]
      exact startOf_eq_stopOf h
  · intro p q
    constructor
    · intro hstart hcoarse hend
      rw [ofPosition_eq p, ofPosition_eq q, hstart, hcoarse, hend]
      exact ⟨rfl, rfl⟩
    · intro hstart hcoarse hend
      rw [ofPosition_eq p, ofPosition_eq q, hstart, hcoarse, hend]
      exact ⟨rfl, rfl⟩

/-- A line and a caret with a start before the line and an end as far right as can be. Without its
columns the position has the same lines, and without its start as well it marks one line. -/
theorem a_start_before_the_line_and_an_end_behind_the_caret :
    let p : Position :=
      { startLine := some (.ofInt 2), line := some (.ofInt 8), pointer := some (.ofInt 5),
        endColumn := some (.ofInt 9007199254740992) }
    let q : Position := { startLine := some (.ofInt 2), line := some (.ofInt 8) }
    let point : Position := { line := some (.ofInt 8) }
    p.Counted ∧ p.lines.Pairwise (· ≤ ·) ∧ p.columns.Pairwise (· ≤ ·) ∧
      0 ≤ (ofPosition p).start.line ∧ (ofPosition p).start.NotAfter (ofPosition p).stop ∧
      (ofPosition p).stop.line = (ofPosition q).stop.line ∧
      (ofPosition point).start.line = (ofPosition point).stop.line := by
  intro p q point
  have hcounted : p.Counted := by
    refine ⟨?_, ?_⟩
    · intro x hx
      have hx : x ∈ [Number.ofInt 2, .ofInt 8] := hx
      rcases List.mem_pair.mp hx with hx | hx
      · exact ⟨2, hx, by decide, by decide⟩
      · exact ⟨8, hx, by decide, by decide⟩
    · intro x hx
      have hx : x ∈ [Number.ofInt 5, .ofInt 9007199254740992] := hx
      rcases List.mem_pair.mp hx with hx | hx
      · exact ⟨5, hx, by decide, by decide⟩
      · exact ⟨9007199254740992, hx, by decide, by decide⟩
  have hlines : p.lines.Pairwise (· ≤ ·) :=
    List.pairwise_pair.mpr ((Number.ofInt_le_ofInt (by decide) (by decide)).mpr (by decide))
  have hcolumns : p.columns.Pairwise (· ≤ ·) :=
    List.pairwise_pair.mpr ((Number.ofInt_le_ofInt (by decide) (by decide)).mpr (by decide))
  obtain ⟨hrange, hpoint, hsame⟩ := a_range_stands_as_its_position_does
  obtain ⟨⟨hstart, -⟩, -, -, hbefore⟩ := hrange p hcounted
  exact ⟨hcounted, hlines, hcolumns, hstart, hbefore hlines (.inr hcolumns),
    ((hsame p q).1 rfl rfl rfl).2, (hpoint point).1 rfl (.inl rfl)⟩

end Range

end BuildFeed
