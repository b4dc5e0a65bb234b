import Inspection.Proofs.Plan.Apart

/-!
# Plan — the names of exports

The file of an export is named by the metric, the two ends of the window and its step.  The metric
may have whatever characters, and even the end of such a name in it, but no number has the
underscore that parts the name.  So the name is told apart from its end: what stands behind the last
underscore is the step, and so on to the front, where all that is left is the metric.

* `Text.append_cons_inj`: the last separator parts a text in one way.
* `Window.fileName_tells`: the name tells the metric and the window.
-/

namespace Inspection

/-- **The last separator** parts a text in one way. -/
theorem Text.append_cons_inj {α : Type} {sep : α} {before front behind back : List α}
    (hb : sep ∉ behind) (hk : sep ∉ back) :
    before ++ sep :: behind = front ++ sep :: back ↔ before = front ∧ behind = back := by
  constructor
  · intro h
    -- Where one text is longer before the separator, it holds the separator of the other behind it.
    rcases List.append_eq_append_iff.mp h with ⟨more, rfl, hmore⟩ | ⟨more, rfl, hmore⟩
    · cases more with
      | nil => exact ⟨(List.append_nil _).symm, (List.cons.inj hmore).2⟩
      | cons x more =>
        refine absurd ?_ hb
        rw [(List.cons.inj hmore).2]
        simp
    · cases more with
      | nil => exact ⟨List.append_nil _, (List.cons.inj hmore).2.symm⟩
      | cons x more =>
        refine absurd ?_ hk
        rw [(List.cons.inj hmore).2]
        simp
  · rintro ⟨rfl, rfl⟩
    rfl

namespace Window

open Text

/-- What stands in a name between the numbers, from its end. -/
theorem toList_fileName (w : Window) (metric : String) : (w.fileName metric).toList =
    (((metric.toList ++ '_' :: (integer w.start.seconds).toList) ++ "_to".toList ++
      '_' :: (integer w.finish.seconds).toList) ++ '_' :: (natural w.step).toList) ++
        "s.json".toList := by
  simp [fileName]

/-- **The name of an export tells what it is of**: the same name is given to the same metric only,
over windows with the same ends, to the second, and the same step.  The alerts have another. -/
theorem fileName_tells (v w : Window) (metric other : String) :
    (v.fileName metric = w.fileName other ↔
      metric = other ∧ v.start.seconds = w.start.seconds ∧ v.finish.seconds = w.finish.seconds ∧
        v.step = w.step) ∧
    v.fileName metric ≠ "alert.json" := by
  have hinteger : ∀ i : Int, '_' ∉ (integer i).toList := notMem_integer rfl (by decide)
  have hnatural : ∀ n : Nat, '_' ∉ (natural n).toList := notMem_natural rfl
  refine ⟨?_, Artifact.fileName_ne_alerts v metric⟩
  rw [← String.toList_inj, toList_fileName, toList_fileName, List.append_left_inj,
    append_cons_inj (hnatural _) (hnatural _), append_cons_inj (hinteger _) (hinteger _),
    List.append_left_inj, append_cons_inj (hinteger _) (hinteger _)]
  constructor
  · rintro ⟨⟨⟨hmetric, hstart⟩, hfinish⟩, hstep⟩
    exact ⟨String.toList_injective hmetric, integer_injective (String.toList_injective hstart),
      integer_injective (String.toList_injective hfinish),
      natural_injective (String.toList_injective hstep)⟩
  · rintro ⟨rfl, hstart, hfinish, hstep⟩
    rw [hstart, hfinish, hstep]
    exact ⟨⟨⟨rfl, rfl⟩, rfl⟩, rfl⟩

end Window

end Inspection
