import ScriptEngine.Proofs.Coroutine.History

/-!
# Host functions that call nothing

As long as a host function only looks at the world and changes it, what it does is a
function of the world: it comes to its end, or to the first call it makes, and the
machine gets there by as many steps, with the same frames and operands.
-/

namespace ScriptEngine

variable {H : HostTypes} {α β : Type}

namespace Action

/-- What is left of an action at its end or at its first call, and the world then. -/
def settled : Action H α → World H → Action H α × World H
  | .read next, w => (next w).settled w
  | .write change next, w => next.settled (change w)
  | a, w => (a, w)

@[simp] theorem settled_ask (f : World H → α) (w : World H) :
    (ask f).settled w = (.done (f w), w) := rfl

@[simp] theorem settled_raise (e : ScriptError) (w : World H) :
    (raise e : Action H α).settled w = (.fail (.script e), w) := rfl

@[simp] theorem settled_ofScript (r : Except ScriptError α) (w : World H) :
    (ofScript r : Action H α).settled w = (ofScript r, w) := by
  cases r <;> rfl

/-- What follows goes on from where the first part has come to. -/
theorem settled_bind (x : Action H α) (f : α → Action H β) (w : World H) :
    (x >>= f).settled w = ((x.settled w).1 >>= f).settled (x.settled w).2 := by
  induction x generalizing w with
  | read next ih => exact ih w w
  | write change next ih => exact ih (change w)
  | _ => rfl

@[simp] theorem settled_tableLength (r : TableRef) (w : World H) :
    (tableLength r : Action H Nat).settled w =
      (.done ((w.noteLength (.table r)).table r).length, w.noteLength (.table r)) := rfl

end Action

theorem Machine.after_settled [Host H] (core : Core H) (activations : List (Activation H))
    (a : Action H NativeOutcome) :
    ∃ n, (⟨core, activations, .running a⟩ : Machine H).after n =
      ⟨⟨(a.settled core.world).2, core.proc⟩, activations,
        .running (a.settled core.world).1⟩ := by
  induction a generalizing core with
  | read next ih =>
    obtain ⟨n, hn⟩ := ih core.world core
    exact ⟨n + 1, (after_next _ n).symm.trans hn⟩
  | write change next ih =>
    obtain ⟨n, hn⟩ := ih ⟨change core.world, core.proc⟩
    exact ⟨n + 1, (after_next _ n).symm.trans hn⟩
  | _ => exact ⟨0, rfl⟩

end ScriptEngine
