import ScriptEngine.Proofs.Coroutine.Discipline

/-!
# Histories

A history goes from one state of an engine to later ones, by steps of the
machine and by what the host does in between.  The settings and the functions of
the host stay the same in it.
-/

namespace ScriptEngine

variable {H : HostTypes}

/-- The settings are the same, and functions of the host stay what they are. -/
structure World.Retains (w w' : World H) : Prop where
  settings : w'.settings = w.settings
  native? : ∀ r f, w.native? r = some f → w'.native? r = some f

namespace World

theorem Retains.refl (w : World H) : w.Retains w := by
  refine ⟨rfl, fun _ _ h => ?_⟩
  exact h

theorem Retains.trans {u v w : World H} (h : u.Retains v) (h' : v.Retains w) :
    u.Retains w := by
  refine ⟨h'.settings.trans h.settings, fun r f hf => ?_⟩
  exact h'.native? r f (h.native? r f hf)

theorem Extends.retains {w w' : World H} (h : w.Extends w') : w.Retains w' := by
  refine ⟨h.settings, fun _ _ hf => ?_⟩
  exact h.native? hf

theorem retains_modifyCoroutine (w : World H) (r : CoroutineRef)
    (f : Coroutine → Coroutine) : w.Retains (w.modifyCoroutine r f) := by
  refine ⟨?_, ?_⟩
  · unfold modifyCoroutine modifyObject
    cases r.id <;> rfl
  · intro s n hn
    unfold modifyCoroutine World.native? at *
    rw [object?_modifyObject]
    by_cases hid : r.id = s.id
    · rw [if_pos hid]
      cases hobject : w.object? s.id with
      | none =>
          rw [hobject] at hn
          cases hn
      | some o =>
          rw [hobject] at hn
          cases o with
          | native n' => exact hn
          | _ => cases hn
    · rw [if_neg hid]
      exact hn

end World

namespace Machine

variable {m m' : Machine H}

theorem Turn.retains (h : Turn m m') : m.core.world.Retains m'.core.world := by
  cases h with
  | stays hworld h => exact hworld.retains
  | enters hworld mark waiter h => exact hworld.retains
  | leaves hworld a ha h =>
      rw [hworld]
      exact .refl _
  | engages r c hready p hp hproc next hworld loops hloops h hfrom =>
      rw [hworld]
      have hretains := World.retains_modifyCoroutine m.core.world r fun co =>
        { co with state := co.state.engaged, processor? := none }
      exact ⟨hretains.settings, hretains.native?⟩
  | releases r next exit hexit hworld h hcontrol =>
      rw [hworld]
      have hretains := World.retains_modifyCoroutine m.core.world r fun co =>
        { co with state := co.state.after exit, processor? := some m.core.proc }
      exact ⟨hretains.settings, hretains.native?⟩

/-- One state comes after another in a history. -/
inductive Leads [Host H] (m₀ : Machine H) : Machine H → Prop where
  | refl : Leads m₀ m₀
  | next {m : Machine H} (h : Leads m₀ m) : Leads m₀ m.next
  | again {m : Machine H} (h : Leads m₀ m) {result : Except RuntimeError Value}
      (hfinished : m.control = .finished result) {w : World H}
      (hw : m.core.world.Extends w) {a : Action H NativeOutcome}
      (ha : a.Lawful) : Leads m₀ (.start w a)

section

variable [Host H] {m₀ : Machine H}

theorem Leads.reachable (h : m₀.Leads m) (h₀ : m₀.Reachable) : m.Reachable := by
  induction h with
  | refl => exact h₀
  | next h ih => exact .next ih
  | again h hfinished hw ha ih => exact .again ih hfinished hw ha

theorem Leads.retains [LawfulHost H] (h : m₀.Leads m) (h₀ : m₀.Reachable) :
    m₀.core.world.Retains m.core.world := by
  induction h with
  | refl => exact .refl _
  | next h ih =>
      exact ih.trans (turn_next (h.reachable h₀).wellNested.control).retains
  | again h hfinished hw ha ih => exact ih.trans hw.retains

theorem Leads.trans {m₁ : Machine H} (h : m₀.Leads m₁) (h' : m₁.Leads m) : m₀.Leads m := by
  induction h' with
  | refl => exact h
  | next h' ih => exact .next ih
  | again h' hfinished hw ha ih => exact .again ih hfinished hw ha

theorem leads_after (m : Machine H) (n : Nat) : m.Leads (m.after n) := by
  induction n with
  | zero => exact .refl
  | succ n ih => exact .next ih

/-- One state comes after another, and nothing before the later one ends this. -/
inductive Until (Ends : Machine H → Prop) (m₁ : Machine H) : Machine H → Prop where
  | start : Until Ends m₁ m₁
  | next {m : Machine H} (h : Until Ends m₁ m) (hends : ¬Ends m) : Until Ends m₁ m.next
  | again {m : Machine H} (h : Until Ends m₁ m) (hends : ¬Ends m)
      {result : Except RuntimeError Value} (hfinished : m.control = .finished result)
      {w : World H} (hw : m.core.world.Extends w) {a : Action H NativeOutcome}
      (ha : a.Lawful) : Until Ends m₁ (.start w a)

section

variable {Ends : Machine H → Prop} {m₁ : Machine H}

theorem Until.leads (h : Until Ends m₁ m) : m₁.Leads m := by
  induction h with
  | start => exact .refl
  | next h hends ih => exact .next ih
  | again h hends hfinished hw ha ih => exact .again ih hfinished hw ha

/-- It goes on, or it has ended. -/
theorem Until.cases (Ends : Machine H → Prop) (h : m₁.Leads m) :
    Until Ends m₁ m ∧ ¬Ends m ∨ ∃ m₂, Until Ends m₁ m₂ ∧ Ends m₂ ∧ m₂.Leads m := by
  have hcases {m : Machine H} (h : Until Ends m₁ m) :
      Until Ends m₁ m ∧ ¬Ends m ∨ ∃ m₂, Until Ends m₁ m₂ ∧ Ends m₂ ∧ m₂.Leads m := by
    by_cases hends : Ends m
    · exact Or.inr ⟨m, h, hends, .refl⟩
    · exact Or.inl ⟨h, hends⟩
  induction h with
  | refl => exact hcases .start
  | next h ih =>
      rcases ih with ⟨huntil, hends⟩ | ⟨m₂, huntil, hends, hleads⟩
      · exact hcases (.next huntil hends)
      · exact Or.inr ⟨m₂, huntil, hends, .next hleads⟩
  | again h hfinished hw ha ih =>
      rcases ih with ⟨huntil, hends⟩ | ⟨m₂, huntil, hends, hleads⟩
      · exact hcases (.again huntil hends hfinished hw ha)
      · exact Or.inr ⟨m₂, huntil, hends, .again hleads hfinished hw ha⟩

end

theorem after_add (m : Machine H) (a b : Nat) :
    m.after (a + b) = (m.after a).after b := by
  induction b with
  | zero => rfl
  | succ b ih => exact congrArg Machine.next ih

theorem after_next (m : Machine H) (n : Nat) : m.next.after n = m.after (n + 1) := by
  rw [Nat.add_comm, after_add]
  rfl

theorem Reachable.after {m : Machine H} (h : m.Reachable) (n : Nat) :
    (m.after n).Reachable := by
  have hleads := leads_after m n
  exact hleads.reachable h

end

end Machine

end ScriptEngine
