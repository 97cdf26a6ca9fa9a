import ScriptEngine.Proofs.Request.PlacedErrors

/-!
# Frames that only return

Where one processor has let a call take the place of its frame, another one that keeps the frame
has it below the call.  Such a frame is spent: all that it does is to return what it is given.
The frames and operands of the two processors are the same but for spent frames and their
operands.  `LayoutsMatch` says so, frame by frame.
-/

namespace ScriptEngine

/-- Frames and operands, the topmost first. -/
@[ext] structure Layout where
  frames : List Frame
  operands : List Value

namespace Layout

def empty : Layout := ⟨[], []⟩

instance : Append Layout := ⟨fun L G => ⟨L.frames ++ G.frames, L.operands ++ G.operands⟩⟩

/-- A frame with operands of its own on top. -/
def enter (L : Layout) (f : Frame) (own : List Value) : Layout := ⟨f :: L.frames, own ++ L.operands⟩

@[simp] theorem frames_append (L G : Layout) : (L ++ G).frames = L.frames ++ G.frames := rfl

@[simp] theorem operands_append (L G : Layout) : (L ++ G).operands = L.operands ++ G.operands := rfl

@[simp] theorem frames_enter (L : Layout) (f : Frame) (own : List Value) :
    (L.enter f own).frames = f :: L.frames := rfl

@[simp] theorem operands_enter (L : Layout) (f : Frame) (own : List Value) :
    (L.enter f own).operands = own ++ L.operands := rfl

@[simp] theorem empty_append (G : Layout) : empty ++ G = G := rfl

@[simp] theorem append_empty (L : Layout) : L ++ empty = L := by
  ext1 <;> exact List.append_nil _

/-- The topmost frame waits for a call it has asked for. -/
def Awaits (L : Layout) : Prop := ∃ f, L.frames.head? = some f ∧ f.flags.awaiting = true

/-- The address at which a result reaches the topmost frame.  It does not matter where the result
ends a loop or is waited for. -/
def Aims (L : Layout) (entryPoint : Bool) (address address' : Nat) : Prop :=
  address' = address ∨ entryPoint = true ∨ L.Awaits

end Layout

def Processor.layout (p : Processor) : Layout := ⟨p.frames.items, p.stack.items⟩

/-- All that the function does from this instruction on is to return the topmost operand. -/
def World.ReturnsAt {H : HostTypes} (w : World H) (callee : Callee) (ip : Nat) : Prop :=
  ∃ f i, callee = .function f ∧ (w.closure f).chunk.code[ip]? = some i ∧ i.op = .ret ∧ i.num = 1

/-- Nothing is left to do in the frame but to return what it is given at the address. -/
structure Frame.Spent (R : Callee → Nat → Prop) (s : Frame) (ip : Nat) : Prop where
  returns : R s.callee ip
  handlers : s.handlers = {}
  inner : s.flags.awaiting = false

/-- Spent frames above others: what is handed to the topmost one of them, for the second flag and
address, comes out of the lowest one for the first flag and address. -/
inductive Relays (R : Callee → Nat → Prop) (n : Nat) (L : Layout) (entryPoint : Bool)
    (address : Nat) : Layout → Bool → Nat → Prop where
  | direct {address' : Nat} (haims : L.Aims entryPoint address address') :
      Relays R n L entryPoint address L entryPoint address'
  | through {M : Layout} {s : Frame} (own : List Value) {ip : Nat}
      (h : Relays R n L entryPoint address M s.flags.entryPoint s.returnAddress)
      (hspent : s.Spent R ip) (hbase : s.base = M.operands.length + n) :
      Relays R n L entryPoint address (M.enter s own) false ip

/-- Where a result goes that belongs right above `L`; the second processor has `L'` there and
spent frames, together `M'`. -/
structure Hands (R : Callee → Nat → Prop) (n' : Nat) (L L' : Layout) (flags : FrameFlags)
    (address : Nat) (M' : Layout) (flags' : FrameFlags) (address' : Nat) : Prop where
  relays : Relays R n' L' flags.entryPoint address M' flags'.entryPoint address'
  entry : flags.entryPoint = L.frames.isEmpty
  receives : ∀ f, L.frames.head? = some f →
    f.callee.isFunction = true ∨ f.flags.awaiting = true
  methodCall : flags'.methodCall = flags.methodCall
  awaiting : flags'.awaiting = flags.awaiting

/-- Frames that belong right above these layouts. -/
structure Corresponds (R : Callee → Nat → Prop) (n n' : Nat) (L L' M' : Layout) (f g : Frame) :
    Prop where
  like : g = { f with base := g.base, returnAddress := g.returnAddress, flags := g.flags }
  hands : Hands R n' L L' f.flags f.returnAddress M' g.flags g.returnAddress
  base : f.base = L.operands.length + n
  base' : g.base = M'.operands.length + n'
  waits : f.flags.awaiting = true → f.callee.isFunction = false
  /-- What is adapted for an operator goes to the frame with the operator. -/
  plain : ∀ p, f.handlers.continuation? = some (.post p) →
    M' = L' ∧ g.flags.entryPoint = f.flags.entryPoint ∧
      L'.Aims f.flags.entryPoint f.returnAddress g.returnAddress

/-- The frames and operands of a loop on two processors, the second one with spent frames in
between.  The loop stands on `n` operands on the first processor and on `n'` on the second. -/
inductive LayoutsMatch (R : Callee → Nat → Prop) (n n' : Nat) : Layout → Layout → Prop where
  | ground : LayoutsMatch R n n' .empty .empty
  | frame {L L' M' : Layout} {f g : Frame} (h : LayoutsMatch R n n' L L')
      (hframes : Corresponds R n n' L L' M' f g) (own : List Value)
      (hown : f.callee.isFunction = false → own = []) :
      LayoutsMatch R n n' (L.enter f own) (M'.enter g own)

/-- There are spent frames above `L'`, waiting for whatever becomes of what is above `L`. -/
def Spends (R : Callee → Nat → Prop) (n' : Nat) (L L' M' : Layout) : Prop :=
  ∃ address entryPoint' address',
    Relays R n' L' L.frames.isEmpty address M' entryPoint' address'

variable {R S : Callee → Nat → Prop} {n n' : Nat} {L L' M' : Layout} {f g : Frame}
  {flags flags' : FrameFlags} {address address' : Nat} {entryPoint entryPoint' : Bool}

/-! ## More functions -/

theorem Frame.Spent.mono {s : Frame} {ip : Nat} (hRS : ∀ c ip, R c ip → S c ip)
    (h : s.Spent R ip) : s.Spent S ip :=
  ⟨hRS _ _ h.returns, h.handlers, h.inner⟩

theorem Relays.mono (hRS : ∀ c ip, R c ip → S c ip)
    (h : Relays R n L entryPoint address M' entryPoint' address') :
    Relays S n L entryPoint address M' entryPoint' address' := by
  induction h with
  | direct haims => exact .direct haims
  | through own h hspent hbase ih => exact .through own ih (hspent.mono hRS) hbase

theorem Hands.mono (hRS : ∀ c ip, R c ip → S c ip)
    (h : Hands R n' L L' flags address M' flags' address') :
    Hands S n' L L' flags address M' flags' address' :=
  ⟨h.relays.mono hRS, h.entry, h.receives, h.methodCall, h.awaiting⟩

theorem Corresponds.mono (hRS : ∀ c ip, R c ip → S c ip)
    (h : Corresponds R n n' L L' M' f g) : Corresponds S n n' L L' M' f g :=
  ⟨h.like, h.hands.mono hRS, h.base, h.base', h.waits, h.plain⟩

theorem LayoutsMatch.mono (hRS : ∀ c ip, R c ip → S c ip) (h : LayoutsMatch R n n' L L') :
    LayoutsMatch S n n' L L' := by
  induction h with
  | ground => exact .ground
  | frame h hframes own hown ih => exact .frame ih (hframes.mono hRS) own hown

theorem Spends.mono (hRS : ∀ c ip, R c ip → S c ip) (h : Spends R n' L L' M') :
    Spends S n' L L' M' := by
  obtain ⟨address, entryPoint', address', hrelays⟩ := h
  exact ⟨address, entryPoint', address', hrelays.mono hRS⟩

/-! ## Where results go -/

/-- A result that belongs to the topmost frame, which goes on with it at the address. -/
theorem hands_direct (hentry : flags.entryPoint = L.frames.isEmpty)
    (hreceives : ∀ f, L.frames.head? = some f →
      f.callee.isFunction = true ∨ f.flags.awaiting = true)
    (haims : L'.Aims flags.entryPoint address address') :
    Hands R n' L L' flags address L' flags address' :=
  ⟨.direct haims, hentry, hreceives, rfl, rfl⟩

/-- A call in place of what handed its result on. -/
theorem Hands.replaced (h : Hands R n' L L' flags address M' flags' address')
    (methodCall tailCall : Bool) :
    Hands R n' L L' { methodCall, tailCall, entryPoint := flags.entryPoint } address M'
      { methodCall, tailCall, entryPoint := flags'.entryPoint } address' :=
  ⟨h.relays, h.entry, h.receives, rfl, rfl⟩

/-- A call that takes the place of a frame on one processor and leaves it, spent, on the other. -/
theorem Hands.kept {s : Frame} {ip : Nat}
    (h : Hands R n' L L' flags address M' s.flags s.returnAddress) (own : List Value)
    (hspent : s.Spent R ip) (hbase : s.base = M'.operands.length + n') (methodCall : Bool) :
    Hands R n' L L' { methodCall, tailCall := true, entryPoint := flags.entryPoint } address
      (M'.enter s own) { methodCall } ip :=
  ⟨.through own h.relays hspent hbase, h.entry, h.receives, rfl, rfl⟩

theorem Hands.spends (h : Hands R n' L L' flags address M' flags' address') :
    Spends R n' L L' M' :=
  ⟨address, flags'.entryPoint, address', h.entry ▸ h.relays⟩

theorem spends_self (L L' : Layout) : Spends R n' L L' L' :=
  ⟨0, _, 0, .direct (Or.inl rfl)⟩

theorem Corresponds.handlers (h : Corresponds R n n' L L' M' f g) : g.handlers = f.handlers := by
  rw [h.like]

theorem Corresponds.callee (h : Corresponds R n n' L L' M' f g) : g.callee = f.callee := by
  rw [h.like]

/-- The frames have other variables. -/
theorem Corresponds.updated (h : Corresponds R n n' L L' M' f g) (locals : Array CellRef)
    (pendingArgs : List Value) :
    Corresponds R n n' L L' M' { f with locals, pendingArgs } { g with locals, pendingArgs } := by
  refine ⟨?_, h.hands, h.base, h.base', h.waits, h.plain⟩
  rw [h.like]

/-- The frame of a host function waits for a call it has asked for. -/
theorem Corresponds.waiting (h : Corresponds R n n' L L' M' f g)
    (hnative : f.callee.isFunction = false) :
    Corresponds R n n' L L' M' { f with flags := { f.flags with awaiting := true } }
      { g with flags := { g.flags with awaiting := true } } := by
  have hhands := h.hands
  refine ⟨?_, ⟨hhands.relays, hhands.entry, hhands.receives, hhands.methodCall, rfl⟩, h.base,
    h.base', fun _ => hnative, h.plain⟩
  rw [h.like]

/-- A frame that begins right above the layouts. -/
theorem Hands.corresponds (h : Hands R n' L L' flags address M' flags' address') (callee : Callee)
    {handlers : Handlers} (pendingArgs : List Value) (hawaiting : flags.awaiting = false)
    (hplain : ∀ p, handlers.continuation? = some (.post p) →
      M' = L' ∧ flags'.entryPoint = flags.entryPoint ∧
        L'.Aims flags.entryPoint address address') :
    Corresponds R n n' L L' M'
      { callee, base := L.operands.length + n, returnAddress := address, flags, handlers
        pendingArgs }
      { callee, base := M'.operands.length + n', returnAddress := address', flags := flags'
        handlers, pendingArgs } := by
  refine ⟨rfl, h, rfl, rfl, fun hwaits => ?_, hplain⟩
  dsimp only at hwaits
  rw [hawaiting] at hwaits
  cases hwaits

namespace LayoutsMatch

theorem eq_empty (h : LayoutsMatch R n n' L L') (hnil : L.frames = []) :
    L = .empty ∧ L' = .empty := by
  cases h with
  | ground => exact ⟨rfl, rfl⟩
  | frame h hframes own hown => cases hnil

/-- The topmost frames, if there are any. -/
theorem exists_frame (h : LayoutsMatch R n n' L L') {f : Frame} (htop : L.frames.head? = some f) :
    ∃ L₁ L₁' M₁' g own, L = L₁.enter f own ∧ L' = M₁'.enter g own ∧ LayoutsMatch R n n' L₁ L₁' ∧
      Corresponds R n n' L₁ L₁' M₁' f g ∧ (f.callee.isFunction = false → own = []) := by
  cases h with
  | ground => cases htop
  | frame h hframes own hown =>
    obtain rfl := Option.some.inj htop
    exact ⟨_, _, _, _, own, rfl, rfl, h, hframes, hown⟩

end LayoutsMatch

/-! ## Errors on their way -/

/-- Spent frames have nothing to do with errors. -/
theorem Relays.exists_spent (h : Relays R n L entryPoint address M' entryPoint' address') :
    ∃ spent own, M'.frames = spent ++ L.frames ∧ M'.operands = own ++ L.operands ∧
      (∀ s ∈ spent, s.handlers = {}) ∧
      (entryPoint = false →
        (∀ s ∈ spent, s.flags.entryPoint = false) ∧ entryPoint' = false) := by
  induction h with
  | direct haims => exact ⟨[], [], rfl, rfl, by simp, fun h => ⟨by simp, h⟩⟩
  | @through M s own ip h hspent hbase ih =>
    obtain ⟨spent, operands, hframes, hoperands, hhandlers, hinner⟩ := ih
    refine ⟨s :: spent, own ++ operands, ?_, ?_, ?_, fun hentry => ⟨?_, rfl⟩⟩
    · rw [Layout.frames_enter, hframes]
      rfl
    · rw [Layout.operands_enter, hoperands, List.append_assoc]
    · simpa [hspent.handlers] using hhandlers
    · obtain ⟨hall, hs⟩ := hinner hentry
      simpa [hs] using hall

theorem decoratorsOf_errorPath_of_plain {spent : List Frame}
    (h : ∀ s ∈ spent, s.handlers = {}) : decoratorsOf (errorPath spent) = [] := by
  obtain ⟨rest, hrest⟩ := errorPath_prefix spent
  refine List.filterMap_eq_nil_iff.mpr fun s hs => ?_
  rw [h s (hrest ▸ List.mem_append_left rest hs)]

/-- An error passes spent frames that begin no loop. -/
theorem errorPath_append_of_spent {spent : List Frame} (h : ∀ s ∈ spent, s.handlers = {})
    (hinner : ∀ s ∈ spent, s.flags.entryPoint = false) (frames : List Frame) :
    errorPath (spent ++ frames) = spent ++ errorPath frames := by
  induction spent with
  | nil => rfl
  | cons s spent ih =>
    have hs := h s List.mem_cons_self
    rw [List.cons_append, errorPath, hs, hinner s List.mem_cons_self,
      ih (fun s' hs' => h s' (List.mem_cons_of_mem s hs'))
        fun s' hs' => hinner s' (List.mem_cons_of_mem s hs')]
    rfl

/-- Spent frames show an error to nobody. -/
theorem Spends.decorators (h : Spends R n' L L' M') (hlayouts : LayoutsMatch R n n' L L') :
    decoratorsOf (errorPath M'.frames) = decoratorsOf (errorPath L'.frames) := by
  obtain ⟨address, entryPoint', address', hrelays⟩ := h
  obtain ⟨spent, own, hframes, -, hhandlers, hinner⟩ := hrelays.exists_spent
  cases hempty : L.frames.isEmpty with
  | true =>
    obtain ⟨-, rfl⟩ := hlayouts.eq_empty (List.isEmpty_iff.mp hempty)
    rw [hframes]
    change decoratorsOf (errorPath (spent ++ [])) = []
    rw [List.append_nil]
    exact decoratorsOf_errorPath_of_plain hhandlers
  | false =>
    obtain ⟨hall, -⟩ := hinner hempty
    rw [hframes, errorPath_append_of_spent hhandlers hall]
    have hnone : decoratorsOf spent = [] := by
      refine List.filterMap_eq_nil_iff.mpr fun s hs => ?_
      rw [hhandlers s hs]
    unfold decoratorsOf at hnone ⊢
    rw [List.filterMap_append, hnone, List.nil_append]

theorem decoratorsOf_cons (f : Frame) (frames : List Frame) :
    decoratorsOf (f :: frames) = f.handlers.beforeUnwind?.toList ++ decoratorsOf frames := by
  unfold decoratorsOf
  rw [List.filterMap_cons]
  cases f.handlers.beforeUnwind? <;> rfl

/-- An error is shown to the same functions on both processors. -/
theorem LayoutsMatch.decorators (h : LayoutsMatch R n n' L L') :
    decoratorsOf (errorPath L'.frames) = decoratorsOf (errorPath L.frames) := by
  induction h with
  | ground => rfl
  | @frame L L' M' f g h hframes own hown ih =>
    have hentry := hframes.hands.entry
    have hbelow := hframes.hands.spends.decorators h
    rw [ih] at hbelow
    rw [Layout.frames_enter, Layout.frames_enter, errorPath, errorPath, hframes.handlers]
    cases hhandler : f.handlers.errorHandler?.isSome with
    | true => simp [decoratorsOf_cons, hframes.handlers]
    | false =>
      cases hempty : L.frames.isEmpty with
      | true =>
        rw [List.isEmpty_iff.mp hempty] at hbelow
        rw [hempty] at hentry
        cases hg : g.flags.entryPoint with
        | true => simp [hentry, decoratorsOf_cons, hframes.handlers]
        | false => simp [hentry, decoratorsOf_cons, hframes.handlers, hbelow, errorPath]
      | false =>
        rw [hempty] at hentry
        obtain ⟨_, _, _, _, _, hinner⟩ := hframes.hands.relays.exists_spent
        obtain ⟨-, hg⟩ := hinner hentry
        simp [hentry, hg, decoratorsOf_cons, hframes.handlers, hbelow]

/-- The frame that handles an error on both processors, and what is above and below it. -/
structure Handler (R : Callee → Nat → Prop) (n n' : Nat) (L M' : Layout)
    (path : List Frame) (d : Frame) (Lₕ : Layout) (path' : List Frame) (d' : Frame)
    (Mₕ' : Layout) (handler : NativeRef) : Prop where
  frames : L.frames = path ++ d :: Lₕ.frames
  operands : Lₕ.operands <:+ L.operands
  frames' : M'.frames = path' ++ d' :: Mₕ'.frames
  operands' : Mₕ'.operands <:+ M'.operands
  below : ∃ Lₕ', LayoutsMatch R n n' Lₕ Lₕ' ∧ Corresponds R n n' Lₕ Lₕ' Mₕ' d d'
  handles : d.handlers.errorHandler? = some handler
  passes : ∀ f ∈ path, f.handlers.errorHandler? = none ∧ f.flags.entryPoint = false
  passes' : ∀ f ∈ path', f.handlers.errorHandler? = none ∧ f.flags.entryPoint = false

theorem Handler.ne_nil {path path' : List Frame} {d d' : Frame} {Lₕ Mₕ' : Layout}
    {handler : NativeRef} (h : Handler R n n' L M' path d Lₕ path' d' Mₕ' handler) :
    L.frames.isEmpty = false := by
  rw [h.frames]
  cases path <;> rfl

/-- An error that comes to a frame still does with spent frames on top. -/
theorem Spends.handler {path path' : List Frame} {d d' : Frame} {Lₕ Mₕ' : Layout}
    {handler : NativeRef} (h : Spends R n' L L' M')
    (hhandler : Handler R n n' L L' path d Lₕ path' d' Mₕ' handler) :
    ∃ path', Handler R n n' L M' path d Lₕ path' d' Mₕ' handler := by
  obtain ⟨address, entryPoint', address', hrelays⟩ := h
  obtain ⟨spent, own, hframes, hoperands, hhandlers, hinner⟩ := hrelays.exists_spent
  obtain ⟨hall, -⟩ := hinner hhandler.ne_nil
  refine ⟨spent ++ path', hhandler.frames, hhandler.operands, ?_, ?_, hhandler.below,
    hhandler.handles, hhandler.passes, fun s hs => ?_⟩
  · rw [hframes, hhandler.frames', List.append_assoc]
  · rw [hoperands]
    exact hhandler.operands'.trans (List.suffix_append own _)
  · rcases List.mem_append.mp hs with hs | hs
    · exact ⟨by rw [hhandlers s hs], hall s hs⟩
    · exact hhandler.passes' s hs

theorem Spends.unhandled (h : Spends R n' L L' M') (hnone : Unhandled L'.frames) :
    Unhandled M'.frames := by
  obtain ⟨address, entryPoint', address', hrelays⟩ := h
  obtain ⟨spent, own, hframes, -, hhandlers, -⟩ := hrelays.exists_spent
  intro s hs
  rw [hframes] at hs
  rcases List.mem_append.mp hs with hs | hs
  · rw [hhandlers s hs]
  · exact hnone s hs

/-- Either no frame handles an error, or the same one does on both processors. -/
theorem LayoutsMatch.handler_cases (h : LayoutsMatch R n n' L L') :
    Unhandled L.frames ∧ Unhandled L'.frames ∨
      ∃ path d Lₕ path' d' Mₕ' handler,
        Handler R n n' L L' path d Lₕ path' d' Mₕ' handler := by
  -- From the bottom up; spent frames in between have no handlers.
  induction h with
  | ground => exact Or.inl ⟨by simp [Unhandled, Layout.empty], by simp [Unhandled, Layout.empty]⟩
  | @frame L L' M' f g h hframes own hown ih =>
    cases hf : f.handlers.errorHandler? with
    | some handler =>
      refine Or.inr ⟨[], f, L, [], g, M', handler, rfl, List.suffix_append _ _, rfl,
        List.suffix_append _ _, ⟨L', h, hframes⟩, hf, by simp, by simp⟩
    | none =>
      have hg : g.handlers.errorHandler? = none := by rw [hframes.handlers, hf]
      rcases ih with ⟨hnone, hnone'⟩ | ⟨path, d, Lₕ, path', d', Mₕ', handler, hhandler⟩
      · have hbelow := hframes.hands.spends.unhandled hnone'
        refine Or.inl ⟨?_, ?_⟩
        · simpa [Unhandled, hf] using hnone
        · simpa [Unhandled, hg] using hbelow
      · obtain ⟨path', hbelow⟩ := hframes.hands.spends.handler hhandler
        have hentry : f.flags.entryPoint = false :=
          hframes.hands.entry.trans hhandler.ne_nil
        obtain ⟨_, _, _, _, _, hinner⟩ := hframes.hands.relays.exists_spent
        obtain ⟨-, hentry'⟩ := hinner hentry
        refine Or.inr ⟨f :: path, d, Lₕ, g :: path', d', Mₕ', handler, ?_, ?_, ?_, ?_,
          hbelow.below, hbelow.handles, ?_, ?_⟩
        · rw [Layout.frames_enter, hbelow.frames]
          rfl
        · exact hbelow.operands.trans (List.suffix_append own _)
        · rw [Layout.frames_enter, hbelow.frames']
          rfl
        · exact hbelow.operands'.trans (List.suffix_append own _)
        · simpa [hf, hentry] using hbelow.passes
        · simpa [hg, hentry'] using hbelow.passes'

end ScriptEngine
