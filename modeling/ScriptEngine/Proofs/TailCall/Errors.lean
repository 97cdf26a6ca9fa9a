import ScriptEngine.Proofs.Request.CallSimulation
import ScriptEngine.Proofs.TailCall.SimulationSteps

/-!
# Errors above spent frames

An error comes to the same handler on both machines, or it ends the loop on both.  Spent frames
handle no error and do not see any.
-/

namespace ScriptEngine

variable {H : HostTypes}

theorem ScriptError.Alike.withLocation {e e' : ScriptError} (h : e.Alike e')
    (location? : Option SourceLocation) :
    (e.withLocation location?).Alike (e'.withLocation location?) := by
  rw [h]
  unfold ScriptError.withLocation Alike
  dsimp only
  split <;> rfl

/-- Errors that got their place and traceback on processors at the same place. -/
theorem Processor.Placed.located {p p' : Processor} (h : p.Placed p') (w w' : World H)
    (floor floor' : Nat) {e e' : ScriptError} (he : e.Alike e') :
    (p.located w floor e).Alike (p'.located w' floor' e') := by
  have hlocated := he.withLocation p.location?
  unfold Processor.located
  rw [h.location_eq]
  dsimp only
  generalize e.withLocation p.location? = a at hlocated ⊢
  generalize e'.withLocation p.location? = a' at hlocated ⊢
  rw [hlocated]
  unfold ScriptError.Alike
  split <;> split <;> rfl

namespace Machine

section

variable [Host H] {G G' L L' M' : Layout} {c c' : Core H} {as bs : List (Activation H)}

omit [Host H] in
/-- The frames of the loop above what it stands on. -/
theorem above_floor (h : Faces G G' L M' c c') (hloops : Loops c.world as bs G G') :
    c.proc.frames.above (frameFloor as) = L.frames ∧
      c'.proc.frames.above (frameFloor bs) = M'.frames := by
  obtain ⟨hfloor, hfloor'⟩ := hloops.floor
  rw [hfloor, hfloor']
  exact ⟨items_above_append h.frames, items_above_append h.frames'⟩

omit [Host H] in
/-- Other frames above what the loop stands on. -/
theorem faces_withFrames (h : Faces G G' L M' c c') {frames frames' : Stack Frame}
    {items items' : List Frame} (hitems : frames.items = items ++ G.frames)
    (hitems' : frames'.items = items' ++ G'.frames) :
    Faces G G' ⟨items, L.operands⟩ ⟨items', M'.operands⟩
      { c with proc := { c.proc with frames } }
      { c' with proc := { c'.proc with frames := frames' } } := by
  refine ⟨h.world, ?_, ?_, ?_⟩
  · exact ⟨h.twin.nesting, h.twin.canYield⟩
  · exact Layout.ext hitems h.operands
  · exact Layout.ext hitems' h.operands'

theorem matchesKeeping_afterFailure (h : Faces G G' L M' c c') (hplaced : c.proc.Placed c'.proc)
    (hlayouts : LayoutsMatch c.world.ReturnsAt G.operands.length G'.operands.length L L')
    (hspends : Spends c.world.ReturnsAt G'.operands.length L L' M')
    (hloops : Loops c.world as bs G G') {e e' : RuntimeError} (he : e.Alike e') :
    MatchesKeeping (afterFailure c as e) (afterFailure c' bs e') := by
  have hscript {s s' : ScriptError} (hs : s.Alike s') :
      MatchesKeeping (afterFailure c as (.script s)) (afterFailure c' bs (.script s')) := by
    obtain ⟨habove, habove'⟩ := above_floor h hloops
    have hdecorators : c'.proc.decorators (frameFloor bs) = c.proc.decorators (frameFloor as) := by
      unfold Processor.decorators
      rw [habove, habove']
      exact (hspends.decorators hlayouts).trans hlayouts.decorators
    unfold afterFailure
    dsimp only
    rw [hdecorators]
    exact .mk h hloops (.unwinding hplaced hlayouts hspends (hplaced.located _ _ _ _ hs) _)
  cases he with
  | script hs => exact hscript hs
  | same _ =>
    by_cases hs : ∃ s, e = .script s
    · obtain ⟨s, rfl⟩ := hs
      exact hscript rfl
    · have he : ∀ s, e ≠ .script s := fun s hse => hs ⟨s, hse⟩
      obtain ⟨hfloor, hfloor'⟩ := hloops.floor
      rw [afterFailure_of_ne_script he, afterFailure_of_ne_script he, hfloor, hfloor']
      have hitems : (c.proc.frames.truncate G.frames.length).items = [] ++ G.frames :=
        items_truncate_append h.frames
      have hitems' : (c'.proc.frames.truncate G'.frames.length).items = [] ++ G'.frames :=
        items_truncate_append h.frames'
      exact .mk (faces_withFrames h hitems hitems') hloops (.raised (.same e))

omit [Host H] in
/-- An error that no frame handles leaves the loop with it. -/
theorem exists_catchError {core : Core H} {activations : List (Activation H)}
    {path below : List Frame} (e : ScriptError) (hframes : core.proc.frames.items = path ++ below)
    (hfloor : frameFloor activations = below.length) (hnone : Unhandled path) :
    ∃ (frames : Stack Frame) (rest : List Frame), frames.items = rest ++ below ∧
      catchError core activations e =
        ⟨⟨core.world, { core.proc with frames }⟩, activations, .leaving (.error (.script e))⟩ := by
  rcases catchError_split e hframes hfloor with
    ⟨init, f, handler, rest, frames, rfl, -, hf, -, -⟩ | ⟨rest, frames, -, -, hitems, hcaught⟩
  · rw [hnone f (List.mem_append_right init List.mem_cons_self)] at hf
    cases hf
  · exact ⟨frames, rest, hitems, hcaught⟩

omit [Host H] in
/-- Operands above the base of a frame below go. -/
theorem items_truncate_of_suffix {stack : Stack Value} {operands below lower : List Value}
    {base : Nat} (h : stack.items = operands ++ lower) (hsuffix : below <:+ operands)
    (hbase : base = below.length + lower.length) :
    (stack.truncate base).items = below ++ lower := by
  obtain ⟨above, rfl⟩ := hsuffix
  rw [List.append_assoc] at h
  rw [hbase, ← List.length_append]
  exact items_truncate_append h

/-- The same handler is called on both machines, if there is one. -/
theorem matchesKeeping_catchError (h : Faces G G' L M' c c') (hplaced : c.proc.Placed c'.proc)
    (hlayouts : LayoutsMatch c.world.ReturnsAt G.operands.length G'.operands.length L L')
    (hspends : Spends c.world.ReturnsAt G'.operands.length L L' M')
    (hloops : Loops c.world as bs G G') {e e' : ScriptError} (he : e.Alike e') :
    MatchesKeeping (catchError c as e) (catchError c' bs e') := by
  obtain ⟨hfloor, hfloor'⟩ := hloops.floor
  rcases hlayouts.handler_cases with ⟨hnone, hnone'⟩ |
      ⟨path, d, Lₕ, path₁, d', Mₕ', handler, hhandler⟩
  · obtain ⟨frames, rest, hitems, hcaught⟩ := exists_catchError e h.frames hfloor hnone
    obtain ⟨frames', rest', hitems', hcaught'⟩ :=
      exists_catchError e' h.frames' hfloor' (hspends.unhandled hnone')
    rw [hcaught, hcaught']
    exact .mk (faces_withFrames h hitems hitems') hloops (.raised (.script he))
  · obtain ⟨path', hhandler⟩ := hspends.handler hhandler
    obtain ⟨Lₕ', hbelow, hframes⟩ := hhandler.below
    have hd := hhandler.handles
    have hd' : d'.handlers.errorHandler? = some handler := by rw [hframes.handlers, hd]
    have hitems : c.proc.frames.items = path ++ d :: Lₕ.frames ++ G.frames := by
      rw [h.frames, hhandler.frames]
    have hitems' : c'.proc.frames.items = path' ++ d' :: Mₕ'.frames ++ G'.frames := by
      rw [h.frames', hhandler.frames']
    obtain ⟨frames, hrest, hcaught⟩ := catchError_eq e hitems hfloor.symm
      (errorPath_eq hhandler.passes (by rw [hd]; rfl)) hd
    obtain ⟨frames', hrest', hcaught'⟩ := catchError_eq e' hitems' hfloor'.symm
      (errorPath_eq hhandler.passes' (by rw [hd']; rfl)) hd'
    rw [hcaught, hcaught', he.value_eq]
    refine .mk ⟨h.world, ⟨h.twin.nesting, h.twin.canYield⟩, Layout.ext hrest ?_,
      Layout.ext hrest' ?_⟩ hloops ?_
    · exact items_truncate_of_suffix h.operands hhandler.operands hframes.base
    · exact items_truncate_of_suffix h.operands' hhandler.operands' hframes.base'
    · refine .calling ?_ hbelow (.caught hframes.hands) _ _
      exact ⟨hplaced.ip, hplaced.chunk⟩

theorem matchesKeeping_unwinding (h : Faces G G' L M' c c') (hplaced : c.proc.Placed c'.proc)
    (hlayouts : LayoutsMatch c.world.ReturnsAt G.operands.length G'.operands.length L L')
    (hspends : Spends c.world.ReturnsAt G'.operands.length L L' M')
    (hloops : Loops c.world as bs G G') {e e' : ScriptError} (he : e.Alike e')
    (decorators : List Value) :
    MatchesKeeping (next ⟨c, as, .unwinding e decorators⟩)
      (next ⟨c', bs, .unwinding e' decorators⟩) := by
  cases decorators with
  | nil => exact matchesKeeping_catchError h hplaced hlayouts hspends hloops he
  | cons d rest =>
    change MatchesKeeping ⟨c, as, .calling d [e.value] (.decorated e rest)⟩
      ⟨c', bs, .calling d [e'.value] (.decorated e' rest)⟩
    rw [he.value_eq]
    exact .mk h hloops (.calling hplaced hlayouts (.decorated he hspends rest) _ _)

end

end Machine

end ScriptEngine
