import ScriptEngine.Embedding.Basic
import ScriptEngine.Proofs.Machine.Room
import ScriptEngine.Proofs.Machine.JumpTargets
import ScriptEngine.Proofs.Scope.Layouts
import ScriptEngine.Workbench.Functions

/-!
# Layouts and frames

A function that was made according to its layout has a captured variable for each name, and
once it has begun, its frame has a variable for each slot.  Every symbol that was handed out
for it then leads to a variable, at any time while the function works, and so do the captures
of the functions in it, which are therefore made according to their layouts again.
-/

namespace ScriptEngine

open Exec

variable {H : HostTypes}

/-- The variable that an access goes through: a field is reached through its environment. -/
def Symbol.variable : Symbol → Symbol
  | .global _ env => env
  | s => s

/-- The function has as many captured variables as the layout has names. -/
def World.Equips (w : World H) (r : FunctionRef) (layout : FunctionLayout) : Prop :=
  ∃ k, w.HasClosure r k ∧ k.upvalues.size = layout.upvalueNames.length

/-- The frame that runs has the variables that the layout asks for. -/
structure Core.Fits (c : Core H) (layout : FunctionLayout) (r : FunctionRef) (f : Frame) :
    Prop where
  top : c.proc.frames.top? = some f
  callee : f.callee = .function r
  locals : f.locals.size = layout.localCount
  captured : c.world.Equips r layout

theorem World.Equips.keep {w w' : World H} {r : FunctionRef} {layout : FunctionLayout}
    (h : w.Equips r layout) (hw : w.KeepsClosures w') : w'.Equips r layout := by
  obtain ⟨k, hk, hsize⟩ := h
  exact ⟨k, hw r k hk, hsize⟩

/-! ## Accesses -/

namespace Core.Fits

variable {c : Core H} {layout : FunctionLayout} {r : FunctionRef} {f : Frame} {s : Symbol}

/-- What a function lends is a variable of its frame. -/
theorem symbolCell_run (h : c.Fits layout r f) (hs : layout.Lends s) :
    ∃ cell, symbolCell s c = .ok cell c := by
  unfold symbolCell
  rw [run_bind_of_ok (topFrame_run h.top)]
  obtain ⟨hlocal, hbound⟩ := hs
  cases s with
  | slot index name =>
    have hindex : index < f.locals.size := h.locals.symm ▸ hbound
    simp only [Array.getElem?_eq_getElem hindex]
    exact ⟨_, rfl⟩
  | captured index name =>
    obtain ⟨k, hk, hsize⟩ := h.captured
    have hindex : index < k.upvalues.size := hsize.symm ▸ hbound
    simp only [h.callee]
    rw [run_bind_of_ok (ask_run _ c), hk.closure_eq, Array.getElem?_eq_getElem hindex]
    exact ⟨_, rfl⟩
  | global name env => cases hlocal

/-- An access to a field lends its environment. -/
theorem lends_variable (hs : layout.Admits s) : layout.Lends s.variable := by
  cases s with
  | slot index name => exact ⟨rfl, hs⟩
  | captured index name => exact ⟨rfl, hs⟩
  | global name env => exact hs

theorem captureAll_run (h : c.Fits layout r f) {symbols : List Symbol}
    (hsymbols : ∀ s ∈ symbols, layout.Lends s) :
    ∃ cells, captureAll symbols c = .ok cells c ∧ cells.length = symbols.length := by
  induction symbols with
  | nil => exact ⟨[], rfl, rfl⟩
  | cons s rest ih =>
    obtain ⟨cell, hcell⟩ := h.symbolCell_run (hsymbols s List.mem_cons_self)
    obtain ⟨cells, hcells, hlength⟩ := ih fun s hs => hsymbols s (List.mem_cons_of_mem _ hs)
    refine ⟨cell :: cells, ?_, by rw [List.length_cons, List.length_cons, hlength]⟩
    rw [captureAll, run_bind_of_ok hcell, run_bind_of_ok hcells]
    rfl

/-- A function that captures what its layout says is made according to it. -/
theorem makeClosure_run (h : c.Fits layout r f) {inner : FunctionLayout}
    (hlength : inner.captures.length = inner.upvalueNames.length)
    (hlends : ∀ s ∈ inner.captures, layout.Lends s) (chunk : Chunk) {i : Instruction}
    (hi : i.symbols = inner.captures) :
    ∃ c' made, makeClosure chunk i c = .ok () c' ∧
      c'.proc.stack = c.proc.stack.push (.function made) ∧ c'.world.Equips made inner := by
  obtain ⟨cells, hcells, hsize⟩ := h.captureAll_run hlends
  let k : Closure :=
    { chunk, entry := i.num, upvalues := cells.toArray
      upvalueNames := i.symbols.map Symbol.name, name? := i.name? }
  refine ⟨⟨c.world.add (.closure k), { c.proc with
    stack := c.proc.stack.push (.function ⟨c.world.nextId⟩) }⟩, ⟨c.world.nextId⟩, ?_, rfl, k,
    ?_, ?_⟩
  · rw [makeClosure, hi, run_bind_of_ok hcells, ← hi]
    rfl
  · exact World.object?_add_nextId _ _
  · rw [← hlength, ← hsize]
    exact List.size_toArray

/-- Parameters that are declared get their arguments. -/
theorem bindParams_run {locals : Array CellRef} (args : List Value) {params : List Symbol}
    (hparams : ∀ s ∈ params, ∃ index name, s = .slot index name ∧ index < locals.size)
    (position : Nat) (c : Core H) :
    ∃ c', bindParams locals args position params c = .ok () c' := by
  induction params generalizing position c with
  | nil => exact ⟨c, rfl⟩
  | cons param rest ih =>
    obtain ⟨index, name, rfl, hindex⟩ := hparams param List.mem_cons_self
    obtain ⟨c', hrun⟩ := ih (fun s hs => hparams s (List.mem_cons_of_mem _ hs)) (position + 1)
      { c with
        world := c.world.setCell locals[index] (argumentFor (.slot index name) position args) }
    refine ⟨c', ?_⟩
    rw [bindParams, Array.getElem?_eq_getElem hindex]
    exact hrun

end Core.Fits

/-- Every access of the function finds its variable: those of the symbols it was handed, the
parameters among its declarations, and what the functions in it capture, which are then made
according to their layouts. -/
structure Core.Accesses (c : Core H) (ledger : Ledger) : Prop where
  symbols : ∀ s, s ∈ ledger.declared ∨ s ∈ ledger.resolved →
    ∃ cell, symbolCell s.variable c = .ok cell c
  params : ∀ i : Instruction, (∀ s ∈ i.symbols, s ∈ ledger.declared) →
    ∃ c', bindArgs i c = .ok () c'
  closures : ∀ inner ∈ ledger.inner, ∀ (chunk : Chunk) (i : Instruction),
    i.symbols = inner.captures →
      ∃ c' made, makeClosure chunk i c = .ok () c' ∧
        c'.proc.stack = c.proc.stack.push (.function made) ∧ c'.world.Equips made inner

theorem Core.Fits.accesses {c : Core H} {layout : FunctionLayout} {ledger : Ledger}
    {r : FunctionRef} {f : Frame} (h : c.Fits layout r f) (hserves : layout.Serves ledger) :
    c.Accesses ledger where
  symbols s hs := by
    refine h.symbolCell_run (lends_variable ?_)
    rcases hs with hdeclared | hresolved
    · obtain ⟨index, name, rfl, hindex⟩ := hserves.declared s hdeclared
      exact hindex
    · exact hserves.resolved s hresolved
  params i hi := by
    have hparams : ∀ s ∈ i.symbols, ∃ index name, s = .slot index name ∧
        index < f.locals.size := by
      rw [h.locals]
      exact fun s hs => hserves.declared s (hi s hs)
    obtain ⟨c', hrun⟩ := bindParams_run f.pendingArgs hparams 0
      { c with proc := { c.proc with frames := c.proc.frames.set 0 { f with pendingArgs := [] } } }
    refine ⟨c', ?_⟩
    rw [bindArgs, run_bind_of_ok (topFrame_run h.top)]
    exact hrun
  closures inner hinner chunk i hi :=
    h.makeClosure_run (hserves.inner inner hinner).1 (hserves.inner inner hinner).2 chunk hi

/-! ## Frames at work -/

/-- The frame that runs is one of the same function. -/
theorem Core.Plain.callee_top {c c' : Core H} (h : c.Plain c') {f f' : Frame}
    (htop : c.proc.frames.top? = some f) (htop' : c'.proc.frames.top? = some f') :
    f'.callee = f.callee := by
  have halike := h.frames
  unfold Stack.top? at htop htop'
  generalize c.proc.frames.items = before at halike htop
  generalize c'.proc.frames.items = after at halike htop'
  cases halike with
  | nil => cases htop
  | cons hsame rest =>
    cases htop
    cases htop'
    exact hsame.callee

/-- What may happen from when a function has begun.  It fetches instructions that begin no
function and carries them out, up to what they do to the frames; and in between, while it waits
for others, its frame stays as it is and functions stay what they are. -/
inductive Core.Works [HostObjects H] (c : Core H) : Core H → Prop
  | begun : Works c c
  | instruction {c' : Core H} {chunk : Chunk} {i : Instruction} (h : Works c c')
      (hchunk : c'.proc.chunk? = some chunk) (hcode : chunk.code[c'.proc.ip]? = some i)
      (hbegin : i.op ≠ .beginFunction) : Works c (resultCore (stepIntent c'))
  | meanwhile {c' c'' : Core H} (h : Works c c')
      (hframe : c''.proc.frames.top? = c'.proc.frames.top?)
      (hworld : c'.world.KeepsClosures c''.world) : Works c c''

/-- An instruction of the function leaves its frame with the variables it asks for. -/
theorem Core.Fits.intent [HostObjects H] {c : Core H} {layout : FunctionLayout} {r : FunctionRef}
    {f : Frame} (h : c.Fits layout r f) (chunk : Chunk) {i : Instruction}
    (hbegin : i.op ≠ .beginFunction) :
    ∃ f', (resultCore (Exec.intent chunk i c)).Fits layout r f' := by
  have hplain := (simple_intent chunk i).plain c
  obtain ⟨f', htop, hsize⟩ := keepsRoom_intent chunk hbegin c f h.top
  exact ⟨f', htop, (hplain.callee_top h.top htop).trans h.callee, hsize.trans h.locals,
    h.captured.keep hplain.world.keepsClosures⟩

theorem Core.Fits.stepIntent [HostObjects H] {c : Core H} {layout : FunctionLayout}
    {r : FunctionRef} {f : Frame} (h : c.Fits layout r f) {chunk : Chunk} {i : Instruction}
    (hchunk : c.proc.chunk? = some chunk) (hcode : chunk.code[c.proc.ip]? = some i)
    (hbegin : i.op ≠ .beginFunction) :
    ∃ f', (resultCore (Exec.stepIntent c)).Fits layout r f' := by
  have hfetched : Core.Fits { c with proc := { c.proc with ip := c.proc.ip + 1 } } layout r f :=
    ⟨h.top, h.callee, h.locals, h.captured⟩
  unfold Exec.stepIntent
  rw [run_bind_of_ok (fetch_run_of_code hchunk hcode)]
  exact hfetched.intent chunk hbegin

theorem Core.Works.fits [HostObjects H] {c c' : Core H} {layout : FunctionLayout}
    {r : FunctionRef} {f : Frame} (h : c.Works c') (hfits : c.Fits layout r f) :
    ∃ f', c'.Fits layout r f' := by
  induction h with
  | begun => exact ⟨f, hfits⟩
  | instruction _ hchunk hcode hbegin ih =>
    obtain ⟨f', hfits'⟩ := ih
    exact hfits'.stepIntent hchunk hcode hbegin
  | meanwhile _ hframe hworld ih =>
    obtain ⟨f', hfits'⟩ := ih
    exact ⟨f', hframe.trans hfits'.top, hfits'.callee, hfits'.locals,
      hfits'.captured.keep hworld⟩

/-- A function that begins gets a variable for each slot, unless there is no memory for them. -/
theorem fits_beginFunction {c : Core H} {layout : FunctionLayout} {r : FunctionRef} {f : Frame}
    (htop : c.proc.frames.top? = some f) (hcallee : f.callee = .function r)
    (hequips : c.world.Equips r layout) {i : Instruction} (hi : i.num = layout.localCount) :
    (layout.localCount < localLimit → ∃ c', beginFunction i c = .ok () c') ∧
      ∀ c', beginFunction i c = .ok () c' → ∃ f', c'.Fits layout r f' := by
  rw [beginFunction, run_bind_of_ok (topFrame_run htop)]
  by_cases hlimit : localLimit ≤ i.num
  · rw [if_pos hlimit]
    refine ⟨fun hroom => by omega, fun c' hrun => ?_⟩
    cases hrun
  · rw [if_neg hlimit]
    refine ⟨fun _ => ⟨_, rfl⟩, fun c' hrun => ?_⟩
    cases hrun
    refine ⟨{ f with locals := (c.world.newCells i.num).1 }, ?_, hcallee, ?_, hequips⟩
    · exact top?_setTopFrame_bind (c := { c with world := (c.world.newCells i.num).2 }) htop
        (leaves_pure ())
    · simp [World.newCells, hi]

/-- The function of a chunk has its environment from whoever loads it. -/
theorem World.equips_loadWithEnv {w w' : World H} {chunk : Chunk} {env v : Value}
    {layout : FunctionLayout} (h : w.loadWithEnv chunk env = .ok (v, w'))
    (hnames : layout.upvalueNames = [Symbol.envName]) :
    ∃ r, v = .function r ∧ w'.Equips r layout := by
  unfold loadWithEnv at h
  split at h
  · cases h
    refine ⟨_, rfl, _, World.object?_add_nextId _ _, ?_⟩
    rw [hnames]
    rfl
  · cases h

/-- After any history that leaves the outermost function open, closing the innermost function
gives a layout within whose bounds is everything that was handed out for it, the captures of
the functions in it included; it has a capture for each name, but for the environment of the
outermost function, which comes from the host.  So wherever a function with as many captured
variables begins with as many slots, and as long as it works, each of its accesses finds its
variable, and the functions in it are made with as many captured variables as they have
names. -/
theorem Resolver.layouts_fit [HostObjects H] (steps : List ScopeStep)
    (hopen : ScopeStep.staysOpen 0 steps = true) :
    let a := Audit.start.performAll steps
    a.resolver = Resolver.start.performAll steps ∧
      ∃ layout ledger, a.Closes layout ledger ∧
        (a.ledgers.length = 1 → ∀ (w w' : World H) (chunk : Chunk) (env v : Value),
          w.loadWithEnv chunk env = .ok (v, w') → ∃ r, v = .function r ∧ w'.Equips r layout) ∧
        ∀ (c : Core H) (f : Frame) (r : FunctionRef) (i : Instruction),
          c.proc.frames.top? = some f → f.callee = .function r → c.world.Equips r layout →
          i.num = layout.localCount →
          (layout.localCount < localLimit → ∃ c', beginFunction i c = .ok () c') ∧
            ∀ c' c'', beginFunction i c = .ok () c' → c'.Works c'' → c''.Accesses ledger := by
  intro a
  have hsound : a.Sound := Audit.sound_start.performAll rfl hopen
  obtain ⟨layout, ledger, hcloses⟩ := hsound.exists_closes
  refine ⟨Audit.resolver_performAll _ _, layout, ledger, hcloses,
    fun hroot w w' chunk env v hload => ?_,
    fun c f r i htop hcallee hequips hi => ?_⟩
  · have hcaptures := hcloses.captures
    rw [if_pos hroot] at hcaptures
    exact World.equips_loadWithEnv hload hcaptures.2
  · obtain ⟨hbegins, hfits⟩ := fits_beginFunction htop hcallee hequips hi
    refine ⟨hbegins, fun c' c'' hrun hworks => ?_⟩
    obtain ⟨f', hfits'⟩ := hfits c' hrun
    obtain ⟨f'', hfits''⟩ := hworks.fits hfits'
    exact hfits''.accesses hcloses.serves

namespace Counter

/-- A text in whose outermost function a variable is declared that only a function in a function
in it uses. -/
def text : List ScopeStep :=
  [.defineLocal "counter", .pushFunction, .pushFunction, .resolve "counter", .resolve "print",
    .popFunction, .defineLocal "x"]

/-- The function in the middle. -/
def middle : Closure :=
  { chunk := default, entry := 0, upvalues := #[⟨0⟩, ⟨1⟩]
    upvalueNames := ["counter", Symbol.envName], name? := none }

/-- The function in the middle is about to begin. -/
def entered : Core Workbench.types :=
  let started : World Workbench.types := .start { modules := ⟨false, false, false⟩ } {}
  let (r, w) := started.addClosure middle
  ⟨w, Processor.pushFrame {} { callee := .function r, base := 0, returnAddress := 0 }⟩

end Counter

/-- The function in the middle captures for the innermost one what it does not use itself. -/
theorem Resolver.layouts_fit_counter :
    ScopeStep.staysOpen 0 Counter.text = true ∧
      ∃ ledger c',
        (Audit.start.performAll Counter.text).Closes
          ⟨1, [.slot 0 "counter", .captured 0 "_ENV"], ["counter", "_ENV"]⟩ ledger ∧
        ledger.inner =
          [⟨0, [.captured 0 "counter", .captured 1 "_ENV"], ["counter", "_ENV"]⟩] ∧
        beginFunction { op := .beginFunction, num := 1 } Counter.entered = .ok () c' ∧
        c'.Accesses ledger := by
  have hopen : ScopeStep.staysOpen 0 Counter.text = true := by decide
  obtain ⟨-, layout, ledger, hcloses, -, hruns⟩ :=
    Resolver.layouts_fit (H := Workbench.types) Counter.text hopen
  have hclosed : (Audit.start.performAll Counter.text).resolver.popFunction.1 =
      some ⟨1, [.slot 0 "counter", .captured 0 "_ENV"], ["counter", "_ENV"]⟩ := by decide
  obtain rfl := Option.some.inj (hcloses.closed.symm.trans hclosed)
  have hledger : (Audit.start.performAll Counter.text).ledgers.head?.map Ledger.inner =
      some [⟨0, [.captured 0 "counter", .captured 1 "_ENV"], ["counter", "_ENV"]⟩] := by decide
  rw [hcloses.current] at hledger
  obtain ⟨hbegins, haccesses⟩ := hruns Counter.entered _ _ { op := .beginFunction, num := 1 }
    rfl rfl
    ⟨Counter.middle, World.object?_add_nextId _ _, rfl⟩ rfl
  obtain ⟨c', hrun⟩ := hbegins (by decide)
  exact ⟨hopen, ledger, c', hcloses, Option.some.inj hledger, hrun, haccesses c' c' hrun .begun⟩

end ScriptEngine
