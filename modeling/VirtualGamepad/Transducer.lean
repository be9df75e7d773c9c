import Mathlib.Data.List.Basic

/-! Machines that read one item at a time, emit a list for each, and may stop for good. -/
namespace Transducer

variable {β ε ω γ : Type*}

def run (step : β → ε → List ω × Option β) : β → List ε → List ω × Option β
  | b, [] => ([], some b)
  | b, e :: es =>
    match step b e with
    | (out, none) => (out, none)
    | (out, some b') => (out ++ (run step b' es).1, (run step b' es).2)

variable {step : β → ε → List ω × Option β} {b b' b'' : β} {e : ε} {es : List ε}
  {out outs : List ω}

theorem run_cons_stop (h : step b e = (out, none)) : run step b (e :: es) = (out, none) := by
  unfold run
  rw [h]

theorem run_cons (h : step b e = (out, some b')) :
    run step b (e :: es) = (out ++ (run step b' es).1, (run step b' es).2) := by
  conv_lhs => unfold run
  rw [h]

theorem run_append (h : run step b es = (outs, some b')) (fs : List ε) :
    run step b (es ++ fs) = (outs ++ (run step b' fs).1, (run step b' fs).2) := by
  induction es generalizing b outs with
  | nil =>
    cases h
    rfl
  | cons e es ih =>
    rcases hs : step b e with ⟨out, _ | next⟩
    · rw [run_cons_stop hs] at h
      cases h
    · rw [run_cons hs] at h
      obtain ⟨hout, hlast⟩ := Prod.mk.inj h
      have htail := ih (Prod.ext rfl hlast)
      rw [List.cons_append, run_cons hs, htail, ← hout, List.append_assoc]

theorem run_snoc (h : run step b es = (outs, some b')) (e : ε) :
    run step b (es ++ [e]) = (outs ++ (step b' e).1, (step b' e).2) := by
  rw [run_append h]
  rcases hs : step b' e with ⟨out, _ | next⟩
  · rw [run_cons_stop hs]
  · rw [run_cons hs]
    exact congrArg (fun x => (outs ++ x, some next)) (List.append_nil out)

/-- What each step keeps of its item, the whole run keeps of its items. -/
theorem filterMap_run {f : ω → Option γ} {g : ε → Option γ}
    (hstep : ∀ b e b', (step b e).2 = some b' → (step b e).1.filterMap f = (g e).toList)
    (h : run step b es = (outs, some b')) : outs.filterMap f = es.filterMap g := by
  induction es generalizing b outs with
  | nil =>
    cases h
    rfl
  | cons e es ih =>
    rcases hs : step b e with ⟨out, _ | next⟩
    · rw [run_cons_stop hs] at h
      cases h
    · rw [run_cons hs] at h
      obtain ⟨rfl, hlast⟩ := Prod.mk.inj h
      have hhead := hstep b e next (congrArg Prod.snd hs)
      rw [hs] at hhead
      rw [List.filterMap_append, hhead, ih (Prod.ext rfl hlast), List.filterMap_cons]
      cases g e <;> rfl

/-- A quantity folded over the output follows the machine, if it follows each step. -/
theorem foldl_run {f : γ → ω → γ} {of : β → γ}
    (hstep : ∀ b e b', (step b e).2 = some b' → (step b e).1.foldl f (of b) = of b')
    (h : run step b es = (outs, some b')) : outs.foldl f (of b) = of b' := by
  induction es generalizing b outs with
  | nil =>
    cases h
    rfl
  | cons e es ih =>
    rcases hs : step b e with ⟨out, _ | next⟩
    · rw [run_cons_stop hs] at h
      cases h
    · rw [run_cons hs] at h
      obtain ⟨rfl, hlast⟩ := Prod.mk.inj h
      have hhead := hstep b e next (congrArg Prod.snd hs)
      rw [hs] at hhead
      rw [List.foldl_append, hhead]
      exact ih (Prod.ext rfl hlast)

end Transducer
