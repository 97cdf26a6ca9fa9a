import ScriptEngine.Proofs.Frame.Continuation
import ScriptEngine.Proofs.Frame.Position

/-!
# Where errors come from

An error gets the place of the instruction that its loop has fetched last, and a
traceback with one line for each frame of the loop.  A function that waits for a
call has the line of the instruction that made the call, as long as a frame of that
call is there.  Where none is left, the function is the topmost one, and its line is
looked up in its own chunk by the index of the last instruction, which may be one of
another function.
-/

namespace ScriptEngine

variable {H : HostTypes}

/-- The line of a frame of the function in which this instruction was the last one. -/
def Closure.line (k : Closure) (ip : Nat) : String :=
  let place :=
    match k.chunk.location? ip with
    | some l => l.display
    | none => k.chunk.name ++ ":?"
  place ++ ": in function '" ++ k.displayName ++ "'"

namespace World

variable {w : World H} {f : Frame} {k : Closure}

theorem tracebackLine_of_runs (h : f.Runs w k) (ip : Nat) :
    w.tracebackLine f (some ip) = k.line ip := by
  obtain ⟨r, hr, hk⟩ := h.callee
  unfold tracebackLine
  rw [hr]
  dsimp only
  rw [hk.closure_eq]
  rfl

/-- The lines below a call have the address that the lowest of its frames goes back to. -/
theorem traceback_append {above : List Frame} {ip : Nat}
    (h : LastIs (ip + 1) (addresses above)) (ip? : Option Nat) (rest : List Frame) :
    w.traceback ip? (above ++ rest) = w.traceback ip? above ++ w.traceback (some ip) rest := by
  induction above generalizing ip? with
  | nil => cases h
  | cons g above ih =>
      have hcons (rest : List Frame) : w.traceback ip? (g :: rest) =
          w.tracebackLine g ip? :: w.traceback (previousIp? g.returnAddress) rest := rfl
      rw [List.cons_append, hcons, hcons, List.cons_append]
      rcases lastIs_cons.mp h with ⟨hnil, haddress⟩ | hlast
      · obtain rfl : above = [] := List.map_eq_nil_iff.mp hnil
        rw [show g.returnAddress = ip + 1 from haddress]
        rfl
      · rw [ih hlast]

theorem length_traceback (ip? : Option Nat) (frames : List Frame) :
    (w.traceback ip? frames).length = frames.length := by
  induction frames generalizing ip? with
  | nil => rfl
  | cons f rest ih => exact congrArg (· + 1) (ih _)

end World

/-- The call is in force on the processor that runs, if its loop is the innermost one. -/
theorem CallSite.InForce.holds {s : CallSite H} {m : Machine H} (h : s.InForce m)
    (hm : m.WellNested) (hloop : s.loop.At m.activations) :
    s.Holds (m.control.stage m.core.proc) m.core.proc := by
  rcases h.active_of_at (fun h => h.1) hm hloop with
    ⟨-, hholds⟩ | ⟨k, above, hat, -, -, -, -, hlasts⟩
  · exact hholds
  · exact absurd hloop (Machine.Loop.At.not_of_lasts hat hm hlasts)

namespace Machine

/-- The frames of the innermost loop. -/
def ownFrames (m : Machine H) : List Frame :=
  m.core.proc.frames.above (frameFloor m.activations)

section

variable [Host H] {m m' : Machine H} {s : CallSite H} {k : Closure} {e e' : ScriptError}
  {f : Frame} {i : Instruction}

omit [Host H] in
/-- The loop of a call has the frames of the call, the caller's and some below it. -/
theorem ownFrames_of_failing (hg : m.WellFramed) (hloop : s.loop.At m.activations)
    {error : RuntimeError} (hcontrol : m.control = .failed error) {above : List Frame}
    (hframes : m.core.proc.frames.items = above ++ s.below) :
    ∃ below, m.ownFrames = above ++ s.caller :: below := by
  obtain ⟨core, activations, control⟩ := m
  obtain rfl : control = .failed error := hcontrol
  have hstands : StandsOn .failing activations core.proc.nesting core.proc.frames.items :=
    hg.seated
  obtain ⟨between, below, hlower, hlength, -⟩ :=
    own_of_stands hloop s.floor hstands hframes
  have hitems : core.proc.frames.items = (above ++ s.caller :: between) ++ below := by
    rw [show core.proc.frames.items = _ from hframes]
    unfold CallSite.below
    rw [hlower]
    simp
  refine ⟨between, ?_⟩
  change core.proc.frames.items.take (core.proc.frames.height - frameFloor activations) = _
  rw [← hlength, Stack.height_eq, hitems, List.length_append, Nat.add_sub_cancel]
  exact List.take_left

/-- An error comes up in the innermost loop and goes on its way as the second one. -/
structure Raises (m : Machine H) (e e' : ScriptError) : Prop where
  control : m.control = .failed (.script e)
  unwinds : ∃ decorators, m.next.control = .unwinding e' decorators

theorem Raises.eq (h : m.Raises e e') :
    e' = m.core.proc.located m.core.world (frameFloor m.activations) e := by
  obtain ⟨decorators, hnext⟩ := h.unwinds
  obtain ⟨core, activations, control⟩ := m
  obtain rfl : control = .failed (.script e) := h.control
  cases hnext
  rfl

theorem Raises.location (h : m.Raises e e') :
    e'.location? = (e.withLocation m.core.proc.location?).location? := by
  rw [h.eq]
  unfold Processor.located
  dsimp only
  split <;> rfl

theorem Raises.traceback (h : m.Raises e e') (hnone : e.traceback = []) :
    e'.traceback = m.core.world.traceback (previousIp? m.core.proc.ip) m.ownFrames := by
  have hsame : (e.withLocation m.core.proc.location?).traceback = e.traceback := by
    unfold ScriptError.withLocation
    split <;> rfl
  rw [h.eq]
  unfold Processor.located
  dsimp only
  rw [hsame, hnone]
  rfl

/-- The last instruction that the loop has fetched is the one that it executes. -/
theorem Executes.lasts (hm : m.Executes f i) (hof : s.Of m k) (hsound : k.chunk.IsSound) :
    (⟨s.loop, k.chunk, m.core.proc.ip⟩ : Position H).Lasts m.next := by
  obtain ⟨chunk, hchunk, hcode⟩ := hm.fetches.code
  rw [chunk_counted, hof.chunk] at hchunk
  cases hchunk
  rw [ip_counted] at hcode
  rw [next_of_proceed hm.control]
  refine Position.lasts_exec hof.loop ?_
  rw [hm.polls]
  exact Exec.stays_step ((chunk_counted m.core).trans hof.chunk) (ip_counted m.core) hcode hsound

/-- An instruction that fails by itself has its frame on top. -/
theorem Executes.fails [LawfulHost H] (hm : m.Executes f i) (hreach : m.Reachable)
    (hof : s.Of m k)
    (hframes : (Exec.resultCore (Exec.stepIntent (counted m.core))).proc.frames.items =
      s.below)
    {c : Core H} (hrun : Exec.stepIntent (counted m.core) = .error (.script e) c) :
    m.next.control = .failed (.script e) ∧ ∃ below, m.next.ownFrames = s.caller :: below := by
  have hnext : m.next = ⟨c, m.activations, .failed (.script e)⟩ := by
    rw [next_of_proceed hm.control]
    refine exec_error ?_ m.activations
    rw [hm.polls, Exec.step_eq, Exec.run_bind_of_error hrun]
  have hwellFramed := hreach.next.wellFramed
  rw [hrun] at hframes
  rw [hnext] at hwellFramed ⊢
  have hitems : c.proc.frames.items = [] ++ s.below := hframes
  exact ⟨rfl, ownFrames_of_failing hwellFramed hof.loop rfl hitems⟩

/-- Where a loop raises an error, it is at the instruction that it has fetched last. -/
theorem Raises.holds [LawfulHost H] {p : Position H} (h : m'.Raises e e')
    (hreach : m.Reachable) (hstart : p.Lasts m.next) (hduring : p.During m m')
    (hloop : p.loop.At m'.activations) : p.Holds m'.core.proc := by
  have hstays : ¬p.Moves m' := by
    intro hmoves
    have hcontrol := h.control
    cases hmoves with
    | fetches hloop hmoves => rcases hmoves with hmoves | hmoves <;> simp [hmoves] at hcontrol
    | leaves exit hloop hmoves hexit => simp [hmoves] at hcontrol
  exact ((hduring.lasts hreach hstart).resolve_right hstays).holds
    (hduring.leads.reachable hreach).wellNested hloop

/-- The place and the topmost line are those of the last instruction. -/
theorem Raises.locates_last {p : Position H} (h : m'.Raises e e')
    (hholds : p.Holds m'.core.proc) :
    e'.location? = (e.withLocation (p.chunk.location? p.ip)).location? ∧
      (e.traceback = [] →
        e'.traceback = m'.core.world.traceback (some p.ip) m'.ownFrames ∧
        ∀ top below k, m'.ownFrames = top :: below → top.Runs m'.core.world k →
          e'.traceback.head? = some (k.line p.ip)) := by
  refine ⟨?_, fun hnone => ?_⟩
  · rw [h.location, hholds.location?_eq]
  · have htraceback := h.traceback hnone
    rw [hholds.ip] at htraceback
    refine ⟨htraceback, fun top below k hown hruns => ?_⟩
    rw [htraceback, hown]
    exact congrArg some (World.tracebackLine_of_runs hruns _)

/-- The line of a caller is that of its call, as long as the call has a frame. -/
theorem Raises.locates_caller (h : m'.Raises e e') (hm : m'.WellNested) (hg : m'.WellFramed)
    (hforce : s.InForce m') (hloop : s.loop.At m'.activations)
    (hruns : s.caller.Runs m'.core.world k) {ip : Nat} (haddress : s.address = ip + 1)
    (hnone : e.traceback = []) :
    ∃ above below, m'.ownFrames = above ++ s.caller :: below ∧
      (above ≠ [] → e'.traceback[above.length]? = some (k.line ip)) := by
  obtain ⟨above, hover, hfits⟩ := hforce.holds hm hloop
  obtain ⟨below, hown⟩ := ownFrames_of_failing hg hloop h.control hover.frames
  refine ⟨above, below, hown, fun habove => ?_⟩
  rw [h.control, haddress] at hfits
  have hlast : LastIs (ip + 1) (addresses above) := Or.resolve_left hfits habove
  have hlength := World.length_traceback (w := m'.core.world)
    (previousIp? m'.core.proc.ip) above
  rw [h.traceback hnone, hown, World.traceback_append hlast,
    List.getElem?_append_right (Nat.le_of_eq hlength), hlength, Nat.sub_self]
  exact congrArg some (World.tracebackLine_of_runs hruns ip)

end

/-- An instruction that fails by itself has its own frame on top.  Until its loop fetches
another instruction, every error that comes up in the loop is located at this one, and
the topmost frame has the line of its index, whichever function the frame is of.  While
a call that the instruction makes lasts, its caller has the line of the instruction,
unless no frame of the call is there any more. -/
theorem Vetted.locates [Host H] [LawfulHost H] {m : Machine H} (h : m.Vetted) {f : Frame}
    {i : Instruction} (hm : m.Executes f i) :
    ∃ (s : CallSite H) (k : Closure), s.Of m k ∧
      (∀ e c, Exec.stepIntent (counted m.core) = .error (.script e) c →
        m.next.control = .failed (.script e) ∧
          ∃ below, m.next.ownFrames = s.caller :: below) ∧
      (∀ m' e e', (⟨s.loop, k.chunk, m.core.proc.ip⟩ : Position H).During m m' →
        s.loop.At m'.activations → m'.Raises e e' →
          e'.location? =
            (e.withLocation (k.chunk.location? m.core.proc.ip)).location? ∧
          (e.traceback = [] →
            e'.traceback = m'.core.world.traceback (some m.core.proc.ip) m'.ownFrames ∧
            ∀ top below k', m'.ownFrames = top :: below → top.Runs m'.core.world k' →
              e'.traceback.head? = some (k'.line m.core.proc.ip))) ∧
      ∀ intent c, m.Intends intent c → intent.Calls c.proc →
        ∀ m' e e', s.During m m' → ¬s.Ends m' → s.loop.At m'.activations →
          m'.Raises e e' → e.traceback = [] →
            s.caller.Runs m'.core.world k ∧
            ∃ above below, m'.ownFrames = above ++ s.caller :: below ∧
              (above ≠ [] →
                e'.traceback[above.length]? = some (k.line m.core.proc.ip)) := by
  have hreach := h.reachable
  have hlinked := h.allLinked
  obtain ⟨s, k, hof, hframes⟩ := exists_site_of_proceed hreach hlinked hm.control
  obtain ⟨r, -, hk⟩ := hof.runs.callee
  have hsound := (hlinked.sound r k hk).chunk
  refine ⟨s, k, hof, fun e c hrun => hm.fails hreach hof hframes hrun, ?_, ?_⟩
  · intro m' e e' hduring hloop hraises
    exact hraises.locates_last
      (hraises.holds hreach (hm.lasts hof hsound) hduring hloop)
  · intro intent c hintends hcalls m' e e' hduring hends hloop hraises hnone
    have hne : intent ≠ .proceed := by
      rintro rfl
      exact hcalls
    have hip := (hintends.ip_eq hlinked hne).trans hof.address.symm
    have hoperands : s.operands <:+ c.proc.stack.items := by
      rw [hof.operands]
      exact List.nil_suffix
    rw [hintends.run] at hframes
    have hlasts := hduring.lasts_of hreach
      (CallSite.lasts_called hintends hcalls hof.loop hip hframes hoperands)
      (Or.inl hof.operands)
    have hreach' := hduring.leads.reachable hreach
    have hruns := hof.runs.mono (hduring.leads.keepsClosures hreach)
    exact ⟨hruns, hraises.locates_caller hreach'.wellNested hreach'.wellFramed
      (hlasts.resolve_right hends) hloop hruns hof.address hnone⟩

end Machine

/-! ## The workbench -/

namespace CallSite

/-- A function that calls another one in its second line.  The other one gives way, in
its last line, to the call of a value that is no function. -/
def straying : Chunk where
  name := "straying"
  code :=
    #[{ op := .beginFunction, source? := some ⟨1, 1⟩ },
      { op := .closure, num := 5, symbols? := some [], source? := some ⟨1, 1⟩ },
      { op := .call, source? := some ⟨2, 1⟩ },
      { op := .pop, num := 1, source? := some ⟨3, 1⟩ },
      { op := .ret, source? := some ⟨3, 1⟩ },
      { op := .beginFunction, source? := some ⟨7, 1⟩ },
      { op := .literal, value? := some .nil, source? := some ⟨8, 1⟩ },
      { op := .call, source? := some ⟨9, 1⟩ },
      { op := .ret, num := 1, source? := some ⟨9, 1⟩ }]

def strayingClosure : Closure :=
  { chunk := straying, entry := 0, upvalues := #[], upvalueNames := [], name? := none }

/-- The host calls the first function. -/
def strayed : Machine Workbench.types :=
  .start (.start { modules := ⟨false, false, false⟩ } {})
    (.write (fun w => (w.addClosure strayingClosure).2)
      (.call (.function ⟨3⟩) [] fun r => (Action.ofResult r).bind Library.one))

/-- The call in the second line. -/
def astray : CallSite Workbench.types :=
  { lent with operands := [], address := 3 }

theorem vetted_strayed {n : Nat} (hn : n ≤ 8) : (strayed.after n).Vetted := by
  refine .after (.start _ _ ?_) (fun i hi => ?_) fun i hi => ?_
  · exact .write (fun w => .addClosure w _)
      (.call _ _ fun r => Action.lawful_bind (Action.lawful_ofResult r) Library.lawful_one)
  · intro change next h
    match i, Nat.lt_of_lt_of_le hi hn with
    | 0, _ =>
        cases h
        refine .add _ fun k hk => ?_
        cases hk
        exact ⟨by decide, by decide⟩
    | 1, _ => cases h
    | 2, _ => cases h
    | 3, _ => cases h
    | 4, _ => cases h
    | 5, _ => cases h
    | 6, _ => cases h
    | 7, _ => cases h
  · intro f r htop hf
    match i, Nat.lt_of_lt_of_le hi hn with
    | 0, _ => cases htop
    | 1, _ => cases htop
    | 2, _ => cases htop; cases hf; exact ⟨_, rfl⟩
    | 3, _ => cases htop; cases hf; exact ⟨_, rfl⟩
    | 4, _ => cases htop; cases hf; exact ⟨_, rfl⟩
    | 5, _ => cases htop; cases hf; exact ⟨_, rfl⟩
    | 6, _ => cases htop; cases hf; exact ⟨_, rfl⟩
    | 7, _ => cases htop; cases hf; exact ⟨_, rfl⟩

theorem of_astray : astray.Of (strayed.after 5) strayingClosure where
  loop := .nested _ _ _
  caller := by
    have hframes : (strayed.after 5).core.proc.frames.items = astray.below := by decide +kernel
    rw [hframes]
    exact .refl _
  runs := ⟨⟨_, rfl, rfl⟩, rfl⟩
  chunk := rfl
  address := rfl
  operands := rfl

/-- While the other function runs, the call has not ended. -/
theorem not_ends_of_proceed {m : Machine Workbench.types}
    (hcontrol : m.control = .loop .proceed)
    (hframes : m.core.proc.frames.items.length = 2) : ¬astray.Ends m := by
  intro hends
  cases hends with
  | returned o hloop ho hreturned =>
      cases hreturned with
      | resumed hawaiting hback hip hchunk hoperands =>
          rw [hback] at hframes
          cases hframes
      | awaited v hawaiting hback hoperands => cases hawaiting
  | passed e above hloop h hover hnone => simp [h] at hcontrol
  | stopped e he hloop h hholds => simp [h] at hcontrol
  | refused exit mark waiter rest hexit hloop h hleaving hholds => simp [hleaving] at hcontrol
  | escaped frame v hloop h hpost hv hholds => simp [h] at hcontrol

/-- A script error has not come to the caller as soon as it comes up. -/
theorem not_ends_of_failed {s : CallSite H} {m : Machine H} {e : ScriptError}
    (hcontrol : m.control = .failed (.script e)) : ¬s.Ends m := by
  intro hends
  cases hends with
  | returned o hloop ho hreturned => rcases ho with h | h <;> simp [h] at hcontrol
  | passed e above hloop h hover hnone => simp [h] at hcontrol
  | stopped e' he hloop h hholds =>
      rw [h] at hcontrol
      cases hcontrol
      exact he e rfl
  | refused exit mark waiter rest hexit hloop h hleaving hholds => simp [hleaving] at hcontrol
  | escaped frame v hloop h hpost hv hholds => simp [h] at hcontrol

theorem during_astray : astray.During (strayed.after 5) (strayed.after 9) := by
  have hstart : astray.During (strayed.after 5) (strayed.after 6) := .start
  have hthird : astray.During (strayed.after 5) (strayed.after 8) :=
    .next (.next hstart (not_ends_of_proceed rfl rfl)) (not_ends_of_proceed rfl rfl)
  exact .next hthird (not_ends_of_proceed rfl rfl)

end CallSite

/-- The error that ends the other function is found in its last line. -/
theorem Machine.locates_strayed :
    (CallSite.strayed.after 8).Vetted ∧
      (∃ f, (CallSite.strayed.after 8).Executes f
        { op := .call, source? := some ⟨9, 1⟩ }) ∧
      ∃ e e', (CallSite.strayed.after 9).Raises e e' ∧
        e'.location? = some ⟨"straying", 9, 1⟩ := by
  have hvetted := CallSite.vetted_strayed (Nat.le_refl 8)
  have hexecutes : (CallSite.strayed.after 8).Executes _
      { op := .call, source? := some ⟨9, 1⟩ } := ⟨rfl, rfl, rfl, _, rfl, rfl⟩
  obtain ⟨s, k, hof, -, hlast, -⟩ := hvetted.locates hexecutes
  have hchunk : k.chunk = CallSite.straying := (Option.some.inj hof.chunk).symm
  have hip : (CallSite.strayed.after 8).core.proc.ip = 7 := rfl
  have hsame : (CallSite.strayed.after 9).activations =
      (CallSite.strayed.after 8).activations := rfl
  have hloop : s.loop.At (CallSite.strayed.after 9).activations := by
    rw [hsame]
    exact hof.loop
  obtain ⟨e', hraises⟩ : ∃ e', (CallSite.strayed.after 9).Raises (.call .nil) e' :=
    ⟨_, rfl, [], rfl⟩
  have hlocation := (hlast (CallSite.strayed.after 9) _ e' .start hloop hraises).1
  rw [hchunk, hip] at hlocation
  exact ⟨hvetted, ⟨_, hexecutes⟩, _, e', hraises, hlocation⟩

/-- The line of the caller is that of the instruction which the other function ended
with, though every instruction has its own. -/
theorem Machine.strays_strayed :
    (∀ i ∈ CallSite.straying.code.toList, i.source?.isSome) ∧
      (CallSite.strayed.after 5).Vetted ∧
      CallSite.astray.Of (CallSite.strayed.after 5) CallSite.strayingClosure ∧
      (CallSite.strayed.after 5).core.proc.ip = 2 ∧
      (∃ intent c, (CallSite.strayed.after 5).Intends intent c ∧ intent.Calls c.proc) ∧
      CallSite.astray.During (CallSite.strayed.after 5) (CallSite.strayed.after 9) ∧
      ¬CallSite.astray.Ends (CallSite.strayed.after 9) ∧
      CallSite.astray.loop.At (CallSite.strayed.after 9).activations ∧
      (CallSite.strayed.after 9).ownFrames = [CallSite.astray.caller] ∧
      ∃ e e', (CallSite.strayed.after 9).Raises e e' ∧ e.traceback = [] ∧
        e'.traceback = [CallSite.strayingClosure.line 7] ∧
        e'.traceback ≠ [CallSite.strayingClosure.line 2] := by
  refine ⟨by decide, CallSite.vetted_strayed (by decide), CallSite.of_astray, rfl,
    ⟨.call (.function ⟨4⟩) [] false, _, ⟨rfl, rfl, rfl⟩, rfl⟩, CallSite.during_astray,
    CallSite.not_ends_of_failed rfl, .nested _ _ _, by decide +kernel, _, _, ⟨rfl, [], rfl⟩,
    rfl, rfl, ?_⟩
  decide +kernel

end ScriptEngine
