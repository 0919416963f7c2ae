import Mathlib.Tactic

/-!
# Scanning a log with a watermark

A log is a list in the order of time.  A scanner reads what it sees of the log from a time on,
works its way through it and may be stopped; it remembers a time, and what lies before that time
is meant to be done.

* `CoveredTo`          everything of the log from `w` on and before a time is done;
* `CoveredTo.scan`     a scan that starts inside the covered part covers up to the time of any
                       item it has begun.
-/

section
variable {α : Type} {time : α → ℤ} {log : List α} {w t : ℤ} {Done Done' : α → Prop}

/-- everything of the log from `w` on and before `t` is done -/
def CoveredTo (time : α → ℤ) (log : List α) (w t : ℤ) (Done : α → Prop) : Prop :=
  ∀ x ∈ log, w ≤ time x → time x < t → Done x

theorem CoveredTo.before {t' : ℤ} (h : CoveredTo time log w t Done) (ht : t' ≤ t) :
    CoveredTo time log w t' Done := fun x hx hw hlt => h x hx hw (lt_of_lt_of_le hlt ht)

theorem CoveredTo.mono (h : CoveredTo time log w t Done) (hd : ∀ x, Done x → Done' x) :
    CoveredTo time log w t Done' := fun x hx hw hlt => hd x (h x hx hw hlt)

theorem coveredTo_start (ht : t ≤ w) : CoveredTo time log w t Done := fun _ _ hw hlt => by omega

/-- what a sorted list has before a time that one of its items reaches lies before that item -/
theorem mem_of_time_lt {done begun rest : List α}
    (hsorted : (done ++ begun ++ rest).Pairwise fun a b => time a ≤ time b) (hlen : begun.length ≤ 1)
    {x y : α} (hx : x ∈ done ++ begun ++ rest) (hy : y ∈ done ++ begun) (hlt : time x < time y) :
    x ∈ done := by
  obtain ⟨hfirst, -, hcross⟩ := List.pairwise_append.mp hsorted
  obtain ⟨-, -, hbegun⟩ := List.pairwise_append.mp hfirst
  rcases List.mem_append.mp hx with hx | hx
  · rcases List.mem_append.mp hx with hx | hx
    · exact hx
    · -- the one item begun is not before the items done, nor before itself
      exfalso
      rcases List.mem_append.mp hy with hy | hy
      · have hle := hbegun y hy x hx
        omega
      · match begun, hlen with
        | [b], _ =>
          rw [List.mem_singleton.mp hx, List.mem_singleton.mp hy] at hlt
          omega
        | [], _ => cases hx
  · have hle := hcross y hy x hx
    omega

/-- A scan from the time `lo` on of the first `n` items, stopped with `done` done and `begun`
begun: up to the time of any of these everything is covered, if everything before `lo` was. -/
theorem CoveredTo.scan (hsorted : log.Pairwise fun a b => time a ≤ time b) {n : Nat} {lo : ℤ}
    {done begun rest : List α}
    (hread : (log.take n).filter (fun x => decide (lo ≤ time x)) = done ++ begun ++ rest)
    (hlen : begun.length ≤ 1) (hcov : CoveredTo time log w lo Done) (hdone : ∀ x ∈ done, Done x)
    {y : α} (hy : y ∈ done ++ begun) : CoveredTo time log w (time y) Done := by
  intro x hx hw hlt
  by_cases hlo : time x < lo
  · exact hcov x hx hw hlo
  have hread' : (done ++ begun ++ rest).Pairwise fun a b => time a ≤ time b := by
    rw [← hread]
    exact (hsorted.sublist (List.take_sublist n log)).filter _
  have hyseen : y ∈ log.take n := by
    have hmem : y ∈ done ++ begun ++ rest := List.mem_append_left _ hy
    rw [← hread] at hmem
    exact (List.mem_filter.mp hmem).1
  -- an earlier item than one that was seen was seen too
  have hxseen : x ∈ log.take n := by
    have hparts : log = log.take n ++ log.drop n := (List.take_append_drop n log).symm
    rw [hparts] at hx hsorted
    rcases List.mem_append.mp hx with h | h
    · exact h
    · have hle := (List.pairwise_append.mp hsorted).2.2 y hyseen x h
      omega
  have hxread : x ∈ done ++ begun ++ rest := by
    rw [← hread]
    exact List.mem_filter.mpr ⟨hxseen, by simpa using hlo⟩
  exact hdone x (mem_of_time_lt hread' hlen hxread hy hlt)

end
