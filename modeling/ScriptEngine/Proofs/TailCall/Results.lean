import ScriptEngine.Proofs.TailCall.Instructions
import ScriptEngine.Proofs.TailCall.Keeping

/-!
# Calls and results above spent frames

A call begins alike on two processors that face each other, and a result reaches the same frame.
Where spent frames are in its way on the second processor, it comes out below them some steps later.
-/

namespace ScriptEngine

variable {H : HostTypes}

theorem Stack.exists_push {α : Type} {s : Stack α} {a : α} {as : List α} (h : s.items = a :: as) :
    ∃ t : Stack α, s = t.push a ∧ t.items = as := by
  cases hpop : s.pop? with
  | none => rw [Stack.pop?_eq_none_iff.mp hpop] at h; cases h
  | some p =>
    obtain rfl := Stack.pop?_eq_some_iff.mp hpop
    obtain ⟨rfl, rfl⟩ := List.cons.inj h
    exact ⟨p.2, rfl, rfl⟩

namespace World

variable [Host H] {w w' : World H}

/-- The function gives a value for these arguments at once, and the same wherever it is invoked. -/
def GivesAtOnce (w : World H) (k : NativeRef) (args : Arguments) : Prop :=
  ∃ v, ∀ p, Core.invoke ⟨w, p⟩ k args = .done (.result v)

/-- What a frame does with a value is no error and the same wherever it happens. -/
structure Passes (w : World H) (f : Frame) (v : Value) : Prop where
  post : ∀ p, f.handlers.continuation? = some (.post p) → ∃ v?, p.apply v = .ok v?
  native : ∀ k, f.handlers.continuation? = some (.native k) →
    w.GivesAtOnce k (.ofValues (flattenArgs [v]) false)

theorem Like.invoke_eq (h : w.Like w') (p : Processor) (k : NativeRef) (args : Arguments) :
    Core.invoke ⟨w', p⟩ k args = Core.invoke ⟨w, p⟩ k args := by
  unfold Core.invoke
  rw [h.native?]

theorem passes_of_plain {f : Frame} (h : f.handlers.continuation? = none) (v : Value) :
    w.Passes f v := by
  constructor <;> simp [h]

end World

/-! ## Outcomes -/

/-- What the outcome hands to a frame is for one that has waited for it. -/
def Outcome.Awaits (o : Outcome) : Prop := ∀ f v, o = .finish f v → f.flags.awaiting = true

/-- What the loops do next, with these layouts above what the loops stand on. -/
inductive Outcomes [Host H] (w : World H) (n n' : Nat) (p p' : Processor) (L M' : Layout) :
    Outcome → Outcome → Prop where
  | proceed (hplaced : p.Placed p') (hlayouts : LayoutsMatch w.ReturnsAt n n' L M')
      (hgoes : L.Goes w p.chunk?) : Outcomes w n n' p p' L M' .proceed .proceed
  | finish {L' : Layout} {f g : Frame} (hplaced : p.Placed p' ∨ f.flags.awaiting = true)
      (hlayouts : LayoutsMatch w.ReturnsAt n n' L L')
      (hframes : Corresponds w.ReturnsAt n n' L L' M' f g)
      (v : Value) : Outcomes w n n' p p' L M' (.finish f v) (.finish g v)
  | invoke {f : Frame} {k : NativeRef} {args : Arguments}
      (hplaced : p.Placed p' ∨ w.GivesAtOnce k args ∧ f.handlers = {})
      (hlayouts : LayoutsMatch w.ReturnsAt n n' L M') (htop : L.frames.head? = some f)
      (hnative : f.callee.isFunction = false) :
      Outcomes w n n' p p' L M' (.invoke k args) (.invoke k args)
  | recover {L' : Layout} {flags flags' : FrameFlags} {address address' : Nat}
      (hplaced : p.Placed p') (hlayouts : LayoutsMatch w.ReturnsAt n n' L L')
      (hhands : Hands w.ReturnsAt n' L L' flags address M' flags' address') (e : ScriptError)
      (decorator? : Option Value) (handler : NativeRef) :
      Outcomes w n n' p p' L M' (.recover e decorator? handler flags address)
        (.recover e decorator? handler flags' address')
  | tailCall {L' : Layout} {request : TailCallRequest} {flags flags' : FrameFlags}
      {address address' : Nat}
      (hplaced : p.Placed p' ∨
        ∃ k v, w.GivesAtOnce k (.ofValues (flattenArgs [v]) flags.methodCall) ∧
          request = { function := .native k, args := [v] })
      (hlayouts : LayoutsMatch w.ReturnsAt n n' L L')
      (hhands : Hands w.ReturnsAt n' L L' flags address M' flags' address')
      (hawaiting : flags.awaiting = false) :
      Outcomes w n n' p p' L M' (.tailCall request flags address)
        (.tailCall request flags' address')
  | yield (hplaced : p.Placed p') (hparks : Parks w.ReturnsAt n n' L M' p.yielded? p'.yielded?)
      (v : Value) : Outcomes w n n' p p' L M' (.yield v) (.yield v)
  | return (hnil : L = .empty) (hnil' : M' = .empty) (v : Value) :
      Outcomes w n n' p p' L M' (.return v) (.return v)

/-- What a program comes to on both processors. -/
inductive Comes [Host H] (G G' : Layout) :
    EStateM.Result RuntimeError (Core H) Outcome →
      EStateM.Result RuntimeError (Core H) Outcome → Prop where
  | ok {L M' : Layout} {c c' : Core H} {o o' : Outcome} (h : Faces G G' L M' c c')
      (ho : Outcomes c.world G.operands.length G'.operands.length c.proc c'.proc L M' o o') :
      Comes G G' (.ok o c) (.ok o' c')
  | error {L L' M' : Layout} {c c' : Core H} (h : Faces G G' L M' c c')
      (hplaced : c.proc.Placed c'.proc)
      (hlayouts : LayoutsMatch c.world.ReturnsAt G.operands.length G'.operands.length L L')
      (hspends : Spends c.world.ReturnsAt G'.operands.length L L' M') (e : RuntimeError) :
      Comes G G' (.error e c) (.error e c')

/-- The program does not fail, and what it hands to a frame is for one that has waited for it. -/
inductive Settles [Host H] (G G' : Layout) :
    EStateM.Result RuntimeError (Core H) Outcome →
      EStateM.Result RuntimeError (Core H) Outcome → Prop where
  | mk {L M' : Layout} {c c' : Core H} {o o' : Outcome} (h : Faces G G' L M' c c')
      (ho : Outcomes c.world G.operands.length G'.operands.length c.proc c'.proc L M' o o')
      (hawaits : o.Awaits) : Settles G G' (.ok o c) (.ok o' c')

section

variable [Host H] {G G' L L' M' : Layout} {c c' : Core H} {f g : Frame} {own own' : List Value}
  {flags flags' : FrameFlags} {address address' : Nat}

theorem Settles.comes {r r' : EStateM.Result RuntimeError (Core H) Outcome}
    (h : Settles G G' r r') : Comes G G' r r' := by
  cases h with
  | mk h ho hawaits => exact .ok h ho

namespace Faces

omit [Host H] in
/-- Other processors with the same frames and operands. -/
theorem same (h : Faces G G' L M' c c') {p p' : Processor} (htwin : p.Twin p')
    (hlayout : p.layout = c.proc.layout) (hlayout' : p'.layout = c'.proc.layout) :
    Faces G G' L M' ⟨c.world, p⟩ ⟨c'.world, p'⟩ := by
  refine ⟨h.world, htwin, ?_, ?_⟩
  · rw [hlayout, h.layout]
  · rw [hlayout', h.layout']

omit [Host H] in
theorem exists_top (h : Faces G G' (L.enter f own) (M'.enter g own') c c') :
    ∃ rest rest' : Stack Frame, c.proc.frames = rest.push f ∧ c'.proc.frames = rest'.push g ∧
      rest.items = (L ++ G).frames ∧ rest'.items = (M' ++ G').frames := by
  obtain ⟨rest, hrest, hitems⟩ := Stack.exists_push h.frames
  obtain ⟨rest', hrest', hitems'⟩ := Stack.exists_push h.frames'
  exact ⟨rest, rest', hrest, hrest', hitems, hitems'⟩

omit [Host H] in
/-- The frames go, which have no operands of their own. -/
theorem popped (h : Faces G G' (L.enter f []) (M'.enter g []) c c') {rest rest' : Stack Frame}
    (hitems : rest.items = (L ++ G).frames) (hitems' : rest'.items = (M' ++ G').frames) :
    Faces G G' L M' { c with proc := { c.proc with frames := rest } }
      { c' with proc := { c'.proc with frames := rest' } } := by
  refine ⟨h.world, ?_, ?_, ?_⟩
  · exact ⟨h.twin.nesting, h.twin.canYield⟩
  · exact Layout.ext hitems h.operands
  · exact Layout.ext hitems' h.operands'

omit [Host H] in
/-- The frames go with their operands. -/
theorem dropped (h : Faces G G' (L.enter f own) (M'.enter g own') c c')
    {rest rest' : Stack Frame} (hitems : rest.items = (L ++ G).frames)
    (hitems' : rest'.items = (M' ++ G').frames)
    (hbase : f.base = L.operands.length + G.operands.length)
    (hbase' : g.base = M'.operands.length + G'.operands.length) :
    Faces G G' L M'
      { c with proc := { c.proc with frames := rest, stack := c.proc.stack.truncate f.base } }
      { c' with
        proc := { c'.proc with frames := rest', stack := c'.proc.stack.truncate g.base } } := by
  refine ⟨h.world, ⟨h.twin.nesting, h.twin.canYield⟩, Layout.ext hitems ?_, Layout.ext hitems' ?_⟩
  · change (c.proc.stack.truncate f.base).items = (L ++ G).operands
    have hoperands : c.proc.stack.items = own ++ (L ++ G).operands :=
      h.operands.trans (List.append_assoc _ _ _)
    rw [hbase, ← List.length_append]
    exact items_truncate_append hoperands
  · change (c'.proc.stack.truncate g.base).items = (M' ++ G').operands
    have hoperands : c'.proc.stack.items = own' ++ (M' ++ G').operands :=
      h.operands'.trans (List.append_assoc _ _ _)
    rw [hbase', ← List.length_append]
    exact items_truncate_append hoperands

omit [Host H] in
/-- Values are handed to the topmost frames, which go on somewhere. -/
theorem received (h : Faces G G' (L.enter f own) (M'.enter g own) c c') (vs : List Value)
    (ip ip' : Nat) (chunk? chunk?' : Option Chunk) :
    Faces G G' (L.enter f (vs.reverse ++ own)) (M'.enter g (vs.reverse ++ own))
      { c with proc := { c.proc with stack := c.proc.stack.pushAll vs, ip, chunk? } }
      { c' with proc :=
          { c'.proc with stack := c'.proc.stack.pushAll vs, ip := ip', chunk? := chunk?' } } := by
  refine ⟨h.world, ⟨h.twin.nesting, h.twin.canYield⟩, Layout.ext h.frames ?_,
    Layout.ext h.frames' ?_⟩
  · change (c.proc.stack.pushAll vs).items = _
    rw [Stack.items_pushAll, h.operands]
    simp
  · change (c'.proc.stack.pushAll vs).items = _
    rw [Stack.items_pushAll, h.operands']
    simp

omit [Host H] in
/-- Frames are back on top. -/
theorem pushed (h : Faces G G' L M' c c') (f g : Frame) :
    Faces G G' (L.enter f []) (M'.enter g [])
      { c with proc := { c.proc with frames := c.proc.frames.push f } }
      { c' with proc := { c'.proc with frames := c'.proc.frames.push g } } := by
  refine ⟨h.world, ?_, ?_, ?_⟩
  · exact ⟨h.twin.nesting, h.twin.canYield⟩
  · exact Layout.ext (congrArg (f :: ·) h.frames) h.operands
  · exact Layout.ext (congrArg (g :: ·) h.frames') h.operands'

omit [Host H] in
/-- Frames are pushed. -/
theorem pushFrame (h : Faces G G' L M' c c') (f g : Frame) :
    Faces G G' (L.enter f []) (M'.enter g []) { c with proc := c.proc.pushFrame f }
      { c' with proc := c'.proc.pushFrame g } := by
  refine ⟨h.world, ?_, ?_, ?_⟩
  · exact ⟨h.twin.nesting, h.twin.canYield⟩
  · exact Layout.ext (congrArg (f :: ·) h.frames) h.operands
  · exact Layout.ext (congrArg (g :: ·) h.frames') h.operands'

end Faces

/-! ## Calls -/

namespace Exec

theorem comes_failCall (h : Faces G G' L M' c c') (hplaced : c.proc.Placed c'.proc)
    (hlayouts : LayoutsMatch c.world.ReturnsAt G.operands.length G'.operands.length L L')
    (hhands : Hands c.world.ReturnsAt G'.operands.length L L' flags address M' flags' address')
    (e : ScriptError) (handlers : Handlers) :
    Comes G G' (failCall e flags address handlers c) (failCall e flags' address' handlers c') := by
  unfold failCall
  cases handlers.errorHandler? with
  | some handler => exact .ok h (.recover hplaced hlayouts hhands e _ _)
  | none => exact .error h hplaced hlayouts hhands.spends _

/-- The frame of a callee begins. -/
theorem settles_enter (h : Faces G G' L M' c c')
    (hlayouts : LayoutsMatch c.world.ReturnsAt G.operands.length G'.operands.length L L')
    (hhands : Hands c.world.ReturnsAt G'.operands.length L L' flags address M' flags' address')
    (hawaiting : flags.awaiting = false) (callee : Callee) (args : List Value)
    {handlers : Handlers}
    (hplaced : c.proc.Placed c'.proc ∨
      ∃ k, callee = .native k ∧ c.world.GivesAtOnce k (.ofValues args flags.methodCall) ∧
        handlers = {})
    (hplain : ∀ p, handlers.continuation? = some (.post p) →
      M' = L' ∧ flags'.entryPoint = flags.entryPoint ∧
        L'.Aims flags.entryPoint address address')
    (hroom : c.proc.frames.height < c.world.settings.maxCallDepth)
    (hroom' : c'.proc.frames.height < c'.world.settings.maxCallDepth) :
    Settles G G' (enter callee args flags address handlers c)
      (enter callee args flags' address' handlers c') := by
  obtain ⟨hheight, hheight'⟩ := h.height
  rw [enter_run callee args flags address handlers hroom,
    enter_run callee args flags' address' handlers hroom', hhands.methodCall]
  cases callee with
  | function r =>
    have hframes := hhands.corresponds (n := G.operands.length) (.function r) args hawaiting hplain
    rw [← hheight, ← hheight'] at hframes
    have hpushed := h.pushFrame
      { callee := .function r, base := c.proc.stack.height, returnAddress := address, flags
        handlers, pendingArgs := args }
      { callee := .function r, base := c'.proc.stack.height, returnAddress := address'
        flags := flags', handlers, pendingArgs := args }
    dsimp only
    rw [h.world.closure]
    refine .mk ⟨h.world, ⟨h.twin.nesting, h.twin.canYield⟩, hpushed.layout, hpushed.layout'⟩
      (.proceed ⟨rfl, rfl⟩ (hlayouts.frame hframes [] fun _ => rfl) ?_) (fun _ _ h => by cases h)
    exact ⟨_, r, rfl, rfl, hawaiting, c.world.runs_closure r⟩
  | native k =>
    have hframes := hhands.corresponds (n := G.operands.length) (.native k) [] hawaiting hplain
    rw [← hheight, ← hheight'] at hframes
    refine .mk (h.pushFrame _ _)
      (.invoke ?_ (hlayouts.frame hframes [] fun _ => rfl) rfl rfl) (fun _ _ h => by cases h)
    rcases hplaced with hplaced | ⟨k', hk, hgives, hhandlers⟩
    · exact Or.inl ⟨hplaced.ip, hplaced.chunk⟩
    · obtain rfl := Callee.native.inj hk
      exact Or.inr ⟨hgives, hhandlers⟩

theorem comes_call (h : Faces G G' L M' c c') (hplaced : c.proc.Placed c'.proc)
    (hlayouts : LayoutsMatch c.world.ReturnsAt G.operands.length G'.operands.length L L')
    (hhands : Hands c.world.ReturnsAt G'.operands.length L L' flags address M' flags' address')
    (hawaiting : flags.awaiting = false) (function : Value) (args : List Value)
    {handlers : Handlers}
    (hplain : ∀ p, handlers.continuation? = some (.post p) →
      M' = L' ∧ flags'.entryPoint = flags.entryPoint ∧
        L'.Aims flags.entryPoint address address')
    (hroom : c.proc.frames.height < c.world.settings.maxCallDepth)
    (hroom' : c'.proc.frames.height < c'.world.settings.maxCallDepth) :
    Comes G G' (call function args flags address handlers c)
      (call function args flags' address' handlers c') := by
  rw [call, call, run_bind_of_ok (ask_run _ c), run_bind_of_ok (ask_run _ c'), h.world.callee]
  cases c.world.callee maxCallHops function.toScalar (flattenArgs args) with
  | ok resolved =>
    exact (settles_enter h hlayouts hhands hawaiting resolved.1 resolved.2 (Or.inl hplaced) hplain
      hroom hroom').comes
  | error v => exact comes_failCall h hplaced hlayouts hhands _ _

/-- The call of a function that gives a value for its argument at once. -/
theorem comes_confirmation (h : Faces G G' L M' c c')
    (hlayouts : LayoutsMatch c.world.ReturnsAt G.operands.length G'.operands.length L L')
    (hhands : Hands c.world.ReturnsAt G'.operands.length L L' flags address M' flags' address')
    (hawaiting : flags.awaiting = false) {k : NativeRef} {v : Value}
    (hgives : c.world.GivesAtOnce k (.ofValues (flattenArgs [v]) flags.methodCall))
    (hroom : c.proc.frames.height < c.world.settings.maxCallDepth)
    (hroom' : c'.proc.frames.height < c'.world.settings.maxCallDepth) :
    Comes G G' (call (.native k) [v] flags address {} c)
      (call (.native k) [v] flags' address' {} c') := by
  have hcallee (w : World H) :
      w.callee maxCallHops (Value.toScalar (.native k)) (flattenArgs [v]) =
        .ok (.native k, flattenArgs [v]) := rfl
  rw [call, call, run_bind_of_ok (ask_run _ c), run_bind_of_ok (ask_run _ c'), hcallee, hcallee]
  exact (settles_enter h hlayouts hhands hawaiting (.native k) _ (Or.inr ⟨k, rfl, hgives, rfl⟩)
    (by simp) hroom hroom').comes

/-! ## Results -/

/-- A result that reaches frames that have waited. -/
theorem settles_awaited (h : Faces G G' (L.enter f []) (M'.enter g []) c c')
    (hlayouts : LayoutsMatch c.world.ReturnsAt G.operands.length G'.operands.length L L')
    (hframes : Corresponds c.world.ReturnsAt G.operands.length G'.operands.length L L' M' f g)
    (hentry : flags.entryPoint = false) (hentry' : flags'.entryPoint = false)
    (hawaiting : f.flags.awaiting = true) (v? : Option Value) :
    Settles G G' (deliver flags address v? c) (deliver flags' address' v? c') := by
  obtain ⟨rest, rest', hpush, hpush', hitems, hitems'⟩ := h.exists_top
  rw [deliver_run_awaited _ _ hentry hpush hawaiting,
    deliver_run_awaited _ _ hentry' hpush' (hframes.hands.awaiting.trans hawaiting)]
  refine .mk (h.popped hitems hitems') (.finish (Or.inr hawaiting) hlayouts hframes _)
    fun f' v' hfinish => ?_
  obtain ⟨rfl, -⟩ := Outcome.finish.inj hfinish
  exact hawaiting

/-- A result with which functions go on. -/
theorem settles_resumed {r : FunctionRef} (h : Faces G G' (L.enter f own) (M'.enter g own) c c')
    (hlayouts : LayoutsMatch c.world.ReturnsAt G.operands.length G'.operands.length L L')
    (hframes : Corresponds c.world.ReturnsAt G.operands.length G'.operands.length L L' M' f g)
    (hentry : flags.entryPoint = false) (hentry' : flags'.entryPoint = false)
    (hcallee : f.callee = .function r) (hawaiting : f.flags.awaiting = false)
    (v? : Option Value) :
    Settles G G' (deliver flags address v? c) (deliver flags' address v? c') := by
  obtain ⟨rest, rest', hpush, hpush', -, -⟩ := h.exists_top
  have hcode (chunk? : Option Chunk) :
      codeOf c'.world (.function r) chunk? = some (c.world.closure r).chunk :=
    congrArg (fun k : Closure => some k.chunk) (h.world.closure r)
  have hwhole : LayoutsMatch c.world.ReturnsAt G.operands.length G'.operands.length
      (L.enter f (v?.toList.reverse ++ own)) (M'.enter g (v?.toList.reverse ++ own)) := by
    refine hlayouts.frame hframes _ fun hnative => ?_
    rw [hcallee] at hnative
    cases hnative
  rw [deliver_run_resumed _ _ hentry hpush hawaiting,
    deliver_run_resumed _ _ hentry' hpush' (hframes.hands.awaiting.trans hawaiting),
    hframes.callee, hcallee, hcode]
  exact .mk (h.received v?.toList _ _ _ _)
    (.proceed ⟨rfl, rfl⟩ hwhole ⟨f, r, rfl, hcallee, hawaiting, c.world.runs_closure r⟩)
    (fun _ _ h => by cases h)

/-- A result that reaches the topmost frame. -/
theorem settles_deliver (h : Faces G G' L L' c c')
    (hlayouts : LayoutsMatch c.world.ReturnsAt G.operands.length G'.operands.length L L')
    (hentry : flags.entryPoint = L.frames.isEmpty) (hentry' : flags'.entryPoint = flags.entryPoint)
    (hreceives : ∀ f, L.frames.head? = some f →
      f.callee.isFunction = true ∨ f.flags.awaiting = true)
    (haims : L'.Aims flags.entryPoint address address') (v? : Option Value) :
    Settles G G' (deliver flags address v? c) (deliver flags' address' v? c') := by
  cases hempty : L.frames.isEmpty with
  | true =>
    obtain ⟨rfl, rfl⟩ := hlayouts.eq_empty (List.isEmpty_iff.mp hempty)
    rw [hempty] at hentry
    rw [hentry] at hentry'
    unfold deliver
    rw [if_pos hentry, if_pos hentry']
    exact .mk h (.return rfl rfl _) (fun _ _ h => by cases h)
  | false =>
    rw [hempty] at hentry
    rw [hentry] at hentry'
    obtain ⟨f, htop⟩ : ∃ f, L.frames.head? = some f := by
      cases hframes : L.frames with
      | nil => rw [hframes] at hempty; cases hempty
      | cons f rest => exact ⟨f, rfl⟩
    have htopmost := hreceives f htop
    obtain ⟨L₁, L₁', M₁', g, own, rfl, rfl, hlayouts₁, hframes, hown⟩ := hlayouts.exists_frame htop
    cases hawaiting : f.flags.awaiting with
    | true =>
      obtain rfl := hown (hframes.waits hawaiting)
      exact settles_awaited h hlayouts₁ hframes hentry hentry' hawaiting v?
    | false =>
      obtain ⟨r, hcallee⟩ : ∃ r, f.callee = .function r := by
        have hfunction := htopmost.resolve_right (by simp [hawaiting])
        cases hcallee : f.callee with
        | function r => exact ⟨r, rfl⟩
        | native k => rw [hcallee] at hfunction; cases hfunction
      obtain rfl : address' = address := by
        rcases haims with haddress | hends | ⟨g', hg', hwaits⟩
        · exact haddress
        · rw [hentry] at hends
          cases hends
        · obtain rfl := Option.some.inj hg'
          rw [hframes.hands.awaiting, hawaiting] at hwaits
          cases hwaits
      exact settles_resumed h hlayouts₁ hframes hentry hentry' hcallee hawaiting v?

omit [Host H] in
theorem finish_of_plain {f : Frame} (h : f.handlers.continuation? = none) (v : Value) :
    (finish f v : Exec H Outcome) = deliver f.flags f.returnAddress (some v) := by
  unfold finish
  rw [h]

/-- A result that is adapted for an operator. -/
theorem settles_post (h : Faces G G' L M' c c')
    (hlayouts : LayoutsMatch c.world.ReturnsAt G.operands.length G'.operands.length L L')
    (hframes : Corresponds c.world.ReturnsAt G.operands.length G'.operands.length L L' M' f g)
    {p : PostReturn} (hpost : f.handlers.continuation? = some (.post p)) {v : Value}
    {v? : Option Value} (hv : p.apply v = .ok v?) :
    Settles G G' (finish f v c) (finish g v c') := by
  obtain ⟨rfl, hentry', haims⟩ := hframes.plain p hpost
  have hhands := hframes.hands
  have hrun (c : Core H) : ofScript (.ok v? : Except ScriptError (Option Value)) c =
      .ok v? c := rfl
  unfold finish
  rw [hframes.handlers, hpost]
  dsimp only
  rw [hv, run_bind_of_ok (hrun c), run_bind_of_ok (hrun c')]
  exact settles_deliver h hlayouts hhands.entry hentry' hhands.receives haims v?

/-- A result that goes through a function. -/
theorem settles_continued (h : Faces G G' L M' c c')
    (hlayouts : LayoutsMatch c.world.ReturnsAt G.operands.length G'.operands.length L L')
    (hframes : Corresponds c.world.ReturnsAt G.operands.length G'.operands.length L L' M' f g)
    {k : NativeRef} (hnative : f.handlers.continuation? = some (.native k)) {v : Value}
    (hplaced : c.proc.Placed c'.proc ∨
      c.world.GivesAtOnce k (.ofValues (flattenArgs [v]) false)) :
    Settles G G' (finish f v c) (finish g v c') := by
  unfold finish
  rw [hframes.handlers, hnative]
  exact .mk h (.tailCall (hplaced.imp_right fun hk => ⟨k, v, hk, rfl⟩) hlayouts
    (hframes.hands.replaced false false) rfl) (fun _ _ h => by cases h)

theorem settles_finish (h : Faces G G' L M' c c')
    (hlayouts : LayoutsMatch c.world.ReturnsAt G.operands.length G'.operands.length L L')
    (hframes : Corresponds c.world.ReturnsAt G.operands.length G'.operands.length L L' M' f g)
    {v : Value} (hpasses : c.world.Passes f v) (hplain : f.handlers.continuation? ≠ none) :
    Settles G G' (finish f v c) (finish g v c') := by
  cases hcontinuation : f.handlers.continuation? with
  | none => exact absurd hcontinuation hplain
  | some continuation =>
    cases continuation with
    | native k =>
      exact settles_continued h hlayouts hframes hcontinuation
        (Or.inr (hpasses.native k hcontinuation))
    | post p =>
      obtain ⟨v?, hv⟩ := hpasses.post p hcontinuation
      exact settles_post h hlayouts hframes hcontinuation hv

omit [Host H] in
/-- A result that cannot be adapted. -/
theorem finish_of_error {p : PostReturn} (hpost : f.handlers.continuation? = some (.post p))
    {v : Value} {e : ScriptError} (hv : p.apply v = .error e) (c : Core H) :
    finish f v c = .error (.script e) c := by
  unfold finish
  rw [hpost]
  dsimp only
  rw [hv]
  rfl

/-- In the same place a result is adapted alike, or goes through the same function, or neither
processor can adapt it. -/
theorem settles_or_fails (h : Faces G G' L M' c c') (hplaced : c.proc.Placed c'.proc)
    (hlayouts : LayoutsMatch c.world.ReturnsAt G.operands.length G'.operands.length L L')
    (hframes : Corresponds c.world.ReturnsAt G.operands.length G'.operands.length L L' M' f g)
    (v : Value) (hplain : f.handlers.continuation? ≠ none) :
    Settles G G' (finish f v c) (finish g v c') ∨
      ∃ e, finish f v c = .error (.script e) c ∧ finish g v c' = .error (.script e) c' := by
  cases hcontinuation : f.handlers.continuation? with
  | none => exact absurd hcontinuation hplain
  | some continuation =>
    cases continuation with
    | native k => exact Or.inl (settles_continued h hlayouts hframes hcontinuation (Or.inl hplaced))
    | post p =>
      cases hv : p.apply v with
      | ok v? => exact Or.inl (settles_post h hlayouts hframes hcontinuation hv)
      | error e =>
        have hcontinuation' : g.handlers.continuation? = some (.post p) := by
          rw [hframes.handlers, hcontinuation]
        exact Or.inr ⟨e, finish_of_error hcontinuation hv c, finish_of_error hcontinuation' hv c'⟩

omit [Host H] in
theorem leaveFrame_run {c : Core H} {rest : Stack Frame} (htop : c.proc.frames = rest.push f)
    (v : Value) :
    leaveFrame v c = finish f v
      { c with
        proc := { c.proc with frames := rest, stack := c.proc.stack.truncate f.base } } := by
  rw [leaveFrame, run_bind_of_ok (popFrame?_run_of_top htop)]
  exact run_bind_of_ok (modifyProc_run _ _)

/-- The instruction returns the topmost operand. -/
theorem keepingStep_of_ret {c : Core H} {chunk : Chunk} {i : Instruction} {s : Frame} {v : Value}
    {operands : Stack Value} {frames : Stack Frame} (hchunk : c.proc.chunk? = some chunk)
    (hi : chunk.code[c.proc.ip]? = some i) (hop : i.op = .ret) (hnum : i.num = 1)
    (hoperands : c.proc.stack = operands.push v) (hframes : c.proc.frames = frames.push s)
    (hplain : s.handlers.continuation? = none) :
    keepingStep c = deliver s.flags s.returnAddress (some v)
      ⟨c.world, { c.proc with
        ip := c.proc.ip + 1, frames, stack := operands.truncate s.base }⟩ := by
  have hintent : stepIntent c = .ok (.return v)
      ⟨c.world, { c.proc with ip := c.proc.ip + 1, stack := operands }⟩ := by
    rw [stepIntent, run_bind_of_ok (fetch_run_of_code hchunk hi)]
    dsimp only
    rw [intent, hop]
    dsimp only
    rw [intendReturn, if_pos hnum]
    exact run_bind_of_ok (pop_run_of_push hoperands)
  rw [keepingStep_eq, run_bind_of_ok hintent, carriesOut_keepingCarryOut.leave,
    ← finish_of_plain hplain]
  exact leaveFrame_run
    (c := ⟨c.world, { c.proc with ip := c.proc.ip + 1, stack := operands }⟩) hframes v

/-- A function of the host asks for a call in its own place. -/
theorem comes_tailFromNative (h : Faces G G' L M' c c') (hplaced : c.proc.Placed c'.proc)
    (hlayouts : LayoutsMatch c.world.ReturnsAt G.operands.length G'.operands.length L L')
    (hframes : Corresponds c.world.ReturnsAt G.operands.length G'.operands.length L L' M' f g)
    (hnative : f.callee.isFunction = false) (request : TailCallRequest) :
    Comes G G' (tailFromNative f request c) (tailFromNative g request c') := by
  have hsame := hframes.handlers
  unfold tailFromNative
  by_cases hempty : f.handlers.isEmpty = true
  · have hempty' : g.handlers.isEmpty = true := by rw [hsame, hempty]
    rw [if_pos hempty, if_pos hempty']
    exact .ok h (.tailCall (Or.inl hplaced) hlayouts (hframes.hands.replaced false true) rfl)
  · have hempty' : ¬g.handlers.isEmpty = true := by rwa [hsame]
    have hwaiting := hframes.waiting hnative
    rw [if_neg hempty, if_neg hempty', run_bind_of_ok (modifyProc_run _ c),
      run_bind_of_ok (modifyProc_run _ c')]
    have hlayouts₁ : LayoutsMatch c.world.ReturnsAt G.operands.length G'.operands.length
        (L.enter { f with flags := { f.flags with awaiting := true } } [])
        (M'.enter { g with flags := { g.flags with awaiting := true } } []) :=
      hlayouts.frame hwaiting [] fun _ => rfl
    refine .ok (h.pushed _ _)
      (.tailCall (Or.inl ⟨hplaced.ip, hplaced.chunk⟩) hlayouts₁
        (hands_direct rfl ?_ (Or.inr (Or.inr ⟨_, rfl, rfl⟩))) rfl)
    intro f' hf'
    obtain rfl := Option.some.inj hf'
    exact Or.inr rfl

end Exec

namespace Machine

/-- There is room for a call, and the next instruction is not put off. -/
structure Quiet (m : Machine H) : Prop where
  room : m.core.proc.frames.height < m.core.world.settings.maxCallDepth
  polls : m.control = .loop .proceed →
    m.core.world.cancelled = false ∧ m.core.proc.countInstruction.1 = false

/-- Every state from here on is quiet. -/
def Undisturbed (m : Machine H) : Prop := ∀ j, (m.keepingAfter j).Quiet

theorem keepingAfter_add (m : Machine H) (a b : Nat) :
    m.keepingAfter (a + b) = (m.keepingAfter a).keepingAfter b := by
  induction b with
  | zero => rfl
  | succ b ih => exact congrArg keepingNext ih

theorem keepingAfter_next (m : Machine H) (n : Nat) :
    m.keepingNext.keepingAfter n = m.keepingAfter (n + 1) := by
  rw [Nat.add_comm, keepingAfter_add]
  rfl

theorem Undisturbed.after {m : Machine H} (h : m.Undisturbed) (n : Nat) :
    (m.keepingAfter n).Undisturbed := by
  intro j
  rw [← keepingAfter_add]
  exact h (n + j)

theorem Undisturbed.next {m : Machine H} (h : m.Undisturbed) : m.keepingNext.Undisturbed :=
  h.after 1

/-- A spent frame returns what it has been given. -/
theorem keepingNext_of_spent {c : Core H} {bs : List (Activation H)} {s : Frame} {own : List Value}
    {M G : Layout} {v : Value} {chunk? : Option Chunk}
    (hspent : s.Spent c.world.ReturnsAt c.proc.ip)
    (hchunk : c.proc.chunk? = Exec.codeOf c.world s.callee chunk?)
    (hlayout : c.proc.layout = M.enter s (v :: own) ++ G)
    (hbase : s.base = M.operands.length + G.operands.length)
    (hquiet : Quiet ⟨c, bs, .loop .proceed⟩) :
    ∃ c₁ : Core H, keepingNext ⟨c, bs, .loop .proceed⟩ =
        exec .loop (Exec.deliver s.flags s.returnAddress (some v)) c₁ bs ∧
      c₁.world = c.world ∧ c.proc.Twin c₁.proc ∧ c₁.proc.layout = M ++ G := by
  obtain ⟨r, i, hcallee, hi, hop, hnum⟩ := hspent.returns
  obtain ⟨hcancelled, hdue⟩ := hquiet.polls rfl
  obtain ⟨operands, hoperands, hitems⟩ :=
    Stack.exists_push (congrArg Layout.operands hlayout)
  obtain ⟨frames, hframes, hitems'⟩ := Stack.exists_push (congrArg Layout.frames hlayout)
  have hcounted : counted c =
      ⟨c.world, { c.proc with executed := c.proc.countInstruction.2.executed }⟩ := by
    unfold counted
    rw [countInstruction_eq]
  have hpoll : Exec.keepingPoll c = Exec.keepingStep (counted c) := by
    rw [keepingPoll_run, if_neg (by simpa using hcancelled), if_neg (by simpa using hdue)]
  have hcode : c.proc.chunk? = some (c.world.closure r).chunk :=
    hchunk.trans (by rw [hcallee]; rfl)
  have hstep := Exec.keepingStep_of_ret
    (c := ⟨c.world, { c.proc with executed := c.proc.countInstruction.2.executed }⟩) hcode hi hop
    hnum hoperands hframes (by rw [hspent.handlers])
  rw [← hcounted, ← hpoll] at hstep
  refine ⟨_, exec_congr hstep bs, rfl, ⟨counted_nesting c, canYield_counted c⟩,
    Layout.ext hitems' ?_⟩
  change (operands.truncate s.base).items = (M ++ G).operands
  rw [hbase, ← List.length_append]
  exact items_truncate_append (hitems.trans (List.append_assoc _ _ _))

/-- A result on its way through spent frames. -/
theorem exists_relayed {w : World H} {bs : List (Activation H)} {G : Layout} {entryPoint : Bool}
    {address : Nat} {entryPoint' : Bool} {address' : Nat}
    (h : Relays w.ReturnsAt G.operands.length L entryPoint address M' entryPoint' address')
    {flags : FrameFlags} (hflags : flags.entryPoint = entryPoint') {c : Core H}
    (hworld : c.world = w) (hlayout : c.proc.layout = M' ++ G) (v : Value)
    (hquiet : (exec .loop (Exec.deliver flags address' (some v)) c bs).Undisturbed) :
    ∃ (j : Nat) (c₁ : Core H) (flags₁ : FrameFlags) (address₁ : Nat),
      (exec .loop (Exec.deliver flags address' (some v)) c bs).keepingAfter j =
          exec .loop (Exec.deliver flags₁ address₁ (some v)) c₁ bs ∧
        flags₁.entryPoint = entryPoint ∧ L.Aims entryPoint address address₁ ∧ c₁.world = w ∧
        c.proc.Twin c₁.proc ∧ c₁.proc.layout = L ++ G := by
  -- By the spent frames between: each is resumed, has nothing left but its return, and
  -- hands the result on.
  induction h generalizing c flags with
  | @direct address' haims =>
    exact ⟨0, c, flags, address', rfl, hflags, haims, hworld, ⟨rfl, rfl⟩, hlayout⟩
  | @through M s own ip h hspent hbase ih =>
    obtain ⟨rest, hpush, -⟩ := Stack.exists_push (congrArg Layout.frames hlayout)
    have hoperands : v :: c.proc.stack.items = (M.enter s (v :: own) ++ G).operands :=
      congrArg (v :: ·) (congrArg Layout.operands hlayout)
    have hframes : c.proc.frames.items = (M.enter s (v :: own) ++ G).frames :=
      congrArg Layout.frames hlayout
    obtain ⟨c₀, hrun, hworld₀, htwin₀, rfl, hchunk, hlayout₀⟩ : ∃ c₀ : Core H,
        Exec.deliver flags ip (some v) c = .ok .proceed c₀ ∧ c₀.world = c.world ∧
          c.proc.Twin c₀.proc ∧ c₀.proc.ip = ip ∧
          c₀.proc.chunk? = Exec.codeOf c₀.world s.callee c.proc.chunk? ∧
          c₀.proc.layout = M.enter s (v :: own) ++ G :=
      ⟨_, Exec.deliver_run_resumed ip (some v) hflags hpush hspent.inner, rfl, ⟨rfl, rfl⟩, rfl, rfl,
        Layout.ext hframes hoperands⟩
    have hspent₀ : s.Spent c₀.world.ReturnsAt c₀.proc.ip := by rwa [hworld₀, hworld]
    have hexec : exec .loop (Exec.deliver flags c₀.proc.ip (some v)) c bs =
        ⟨c₀, bs, .loop .proceed⟩ :=
      exec_ok hrun bs
    rw [hexec] at hquiet ⊢
    obtain ⟨c₁, hnext, hworld₁, htwin₁, hlayout₁⟩ :=
      keepingNext_of_spent hspent₀ hchunk hlayout₀ hbase (hquiet 0)
    obtain ⟨j, c₂, flags₂, address₂, hafter, hflags₂, haims, hworld₂, htwin₂, hlayout₂⟩ :=
      ih rfl ((hworld₁.trans hworld₀).trans hworld) hlayout₁ (hnext ▸ hquiet.next)
    refine ⟨j + 1, c₂, flags₂, address₂, ?_, hflags₂, haims, hworld₂, ?_, hlayout₂⟩
    · rw [← keepingAfter_next, hnext, hafter]
    · exact (htwin₀.trans htwin₁).trans htwin₂

end Machine

end

end ScriptEngine
