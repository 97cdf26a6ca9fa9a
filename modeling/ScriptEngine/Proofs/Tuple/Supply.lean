import ScriptEngine.Embedding.Basic
import ScriptEngine.Proofs.Tuple.Flat
import ScriptEngine.Proofs.World.Tables

/-!
# What a host supplies

A world is flat if its variables hold flat values, its tables storable ones that came there by
operations, its chunks have flat literals and its coroutines rest on flat operands.
`World.Receives` are the changes that the interface offers to a host: whatever it writes into
tables and to whichever object, the world stays flat, as long as the literals of its chunks,
the answers of its objects and the environments of its functions are in order.  No such change
puts a tuple into a variable.
-/

namespace ScriptEngine

variable {H : HostTypes}

/-! ## Flat worlds -/

/-- The literals of the chunk have no tuples in tuples. -/
def Chunk.Flat (chunk : Chunk) : Prop :=
  ∀ (ip : Nat) (i : Instruction), chunk.code[ip]? = some i → ∀ v, i.value? = some v → v.Flat

/-- No pending argument is a tuple. -/
def Frame.Flat (f : Frame) : Prop := ∀ v ∈ f.pendingArgs, v.Single

structure Processor.Flat (p : Processor) : Prop where
  stack : ∀ v ∈ p.stack.items, v.Flat
  frames : ∀ f ∈ p.frames.items, f.Flat
  yielded : ∀ f, p.yielded? = some f → f.Flat
  chunk : ∀ chunk, p.chunk? = some chunk → chunk.Flat

theorem Processor.flat_of_empty {p : Processor} (hstack : p.stack = .empty)
    (hframes : p.frames = .empty) (hyielded : p.yielded? = none) (hchunk : p.chunk? = none) :
    p.Flat := by
  constructor <;> simp [hstack, hframes, hyielded, hchunk]

/-- A table holds what operations have put into it, a closure and a coroutine's processor what
is flat. -/
def Object.Flat : Object H → Prop
  | .table t => t.Storable ∧ t.Arises
  | .closure k => k.chunk.Flat
  | .coroutine c => ∀ p, c.processor? = some p → p.Flat
  | .native _ => True
  | .userData _ => True

theorem Object.flat_table {t : Table} (h : t.Arises) : (Object.table t : Object H).Flat :=
  ⟨h.storable, h⟩

/-- The objects of a host in this state answer with flat values, and the definitions of
operators they give are no tuples. -/
structure AnswersFlat [HostObjects H] (s : H.State) : Prop where
  index (o : H.Object) {key : Value} (hkey : key.Flat) :
    FlatResult Value.Flat (HostObjects.index s o key)
  setIndex (o : H.Object) {key v : Value} (hkey : key.Flat) (hv : v.Single) :
    FlatResult (fun _ => True) (HostObjects.setIndex s o key v)
  metamethod (o : H.Object) (op : Operator) (h : Value)
    (hhook : HostObjects.metamethod s o op = some h) : h.Single

namespace World

structure Flat [HostObjects H] (w : World H) : Prop where
  objects : ∀ id o, w.object? id = some o → o.Flat
  cells : ∀ c, (w.cell c).Flat
  answers : AnswersFlat w.host

/-- Every tuple in a variable was there before, or it is `fresh` there. -/
def Spares (fresh : CellRef → Value → Prop) (w w' : World H) : Prop :=
  ∀ c, (w'.cell c).isTuple = true → w'.cell c = w.cell c ∨ fresh c (w'.cell c)

/-! ## Variables -/

section Cells

variable {fresh : CellRef → Value → Prop} {w w' w'' : World H}

theorem Spares.refl (w : World H) : w.Spares fresh w := by
  intro c hc
  exact Or.inl rfl

theorem Spares.trans (h : w.Spares fresh w') (h' : w'.Spares fresh w'') :
    w.Spares fresh w'' := by
  intro c hc
  rcases h' c hc with hsame | hfresh
  · rw [hsame] at hc ⊢
    exact h c hc
  · exact Or.inr hfresh

theorem Spares.of_cells (h : w'.cells = w.cells) : w.Spares fresh w' := by
  intro c hc
  left
  simp [cell, h]

theorem cells_modifyObject (w : World H) (id : Nat) (f : Object H → Object H) :
    (w.modifyObject id f).cells = w.cells := by
  cases id <;> rfl

theorem cell_of_newCell (w : World H) (v : Value) (c : CellRef) :
    (w.newCell v).2.cell c = if c.index = w.cells.size then v else w.cell c := by
  simp only [cell, newCell, Array.getElem?_push]
  split <;> rfl

theorem cell_of_setCell (w : World H) (c other : CellRef) (v : Value) :
    (w.setCell c v).cell other = v ∧ c = other ∨ (w.setCell c v).cell other = w.cell other := by
  by_cases hc : c = other
  · by_cases hbound : c.index < w.cells.size
    · left
      simp [cell, setCell, ← hc, hbound]
    · right
      simp [cell, setCell, ← hc, hbound]
  · right
    have hindex : c.index ≠ other.index := by
      intro hindex
      cases c
      cases other
      simp_all
    simp [cell, setCell, hindex]

theorem getD_pushCells (n : Nat) (cells : Array Value) (i : Nat) :
    ((pushCells n cells)[i]?).getD .nil = (cells[i]?).getD .nil := by
  induction n generalizing cells with
  | zero => rfl
  | succ n ih =>
    rw [pushCells, ih, Array.getElem?_push]
    split
    · next hi => simp [hi]
    · rfl

@[simp] theorem cell_newCells (w : World H) (n : Nat) (c : CellRef) :
    (w.newCells n).2.cell c = w.cell c :=
  getD_pushCells n w.cells c.index

theorem spares_setCell (w : World H) (c : CellRef) {v : Value}
    (hv : v.isTuple = true → fresh c v) : w.Spares fresh (w.setCell c v) := by
  intro other hother
  rcases w.cell_of_setCell c other v with ⟨hset, rfl⟩ | hsame
  · rw [hset] at hother ⊢
    exact Or.inr (hv hother)
  · exact Or.inl hsame

theorem spares_newCell (w : World H) {v : Value} (hv : v.Single) :
    w.Spares fresh (w.newCell v).2 := by
  intro c hc
  rw [cell_of_newCell] at hc ⊢
  split at hc
  · rw [hv] at hc
    cases hc
  · next hold => exact Or.inl (if_neg hold)

theorem spares_newCells (w : World H) (n : Nat) : w.Spares fresh (w.newCells n).2 := by
  intro c hc
  exact Or.inl (w.cell_newCells n c)

end Cells

/-! ## Keeping a world flat -/

section

variable [HostObjects H] {w : World H}

theorem Flat.of_parts {w' : World H} (h : w.Flat) (hobjects : w'.objects = w.objects)
    (hcells : w'.cells = w.cells) (hanswers : AnswersFlat w'.host) : w'.Flat := by
  constructor
  · intro id o ho
    refine h.objects id o ?_
    unfold object? at ho ⊢
    rw [← hobjects]
    exact ho
  · intro c
    simpa [cell, hcells] using h.cells c
  · exact hanswers

theorem Flat.add (h : w.Flat) {o : Object H} (ho : o.Flat) : (w.add o).Flat := by
  refine ⟨fun id other hother => ?_, h.cells, h.answers⟩
  by_cases hid : id = w.nextId
  · subst hid
    rw [object?_add_nextId] at hother
    cases hother
    exact ho
  · rw [object?_add_of_ne w o hid] at hother
    exact h.objects id other hother

theorem Flat.modifyObject (h : w.Flat) (id : Nat) {f : Object H → Object H}
    (hf : ∀ o, w.object? id = some o → o.Flat → (f o).Flat) : (w.modifyObject id f).Flat := by
  refine ⟨fun other o ho => ?_, ?_, ?_⟩
  · rw [object?_modifyObject] at ho
    split at ho
    · next hid =>
      subst hid
      obtain ⟨old, hold, rfl⟩ := Option.map_eq_some_iff.mp ho
      exact hf old hold (h.objects id old hold)
    · exact h.objects other o ho
  · cases id <;> exact h.cells
  · cases id <;> exact h.answers

theorem Flat.modifyTable (h : w.Flat) (r : TableRef) {f : Table → Table}
    (hf : ∀ t, t.Arises → (f t).Arises) : (w.modifyTable r f).Flat := by
  refine h.modifyObject r.id fun o ho hold => ?_
  cases o with
  | table t => exact Object.flat_table (hf t hold.2)
  | _ => exact hold

theorem Flat.setUserObject (h : w.Flat) (u : UserDataRef) (o : H.Object) :
    (w.setUserObject u o).Flat := by
  refine h.modifyObject u.id fun other hother hold => ?_
  cases other with
  | userData old => trivial
  | _ => exact hold

theorem Flat.modifyCoroutine (h : w.Flat) (r : CoroutineRef) {f : Coroutine → Coroutine}
    (hf : ∀ c, w.object? r.id = some (.coroutine c) → ∀ p, (f c).processor? = some p → p.Flat) :
    (w.modifyCoroutine r f).Flat := by
  refine h.modifyObject r.id fun o ho hold => ?_
  cases o with
  | coroutine c => exact hf c ho
  | _ => exact hold

theorem Flat.setCell (h : w.Flat) (c : CellRef) {v : Value} (hv : v.Flat) :
    (w.setCell c v).Flat := by
  refine ⟨?_, fun other => ?_, h.answers⟩
  · exact h.objects
  · rcases w.cell_of_setCell c other v with ⟨hset, -⟩ | hsame
    · rw [hset]
      exact hv
    · rw [hsame]
      exact h.cells other

theorem Flat.newCell (h : w.Flat) {v : Value} (hv : v.Flat) : (w.newCell v).2.Flat := by
  refine ⟨h.objects, fun c => ?_, h.answers⟩
  rw [cell_of_newCell]
  split
  · exact hv
  · exact h.cells c

theorem Flat.newCells (h : w.Flat) (n : Nat) : (w.newCells n).2.Flat := by
  refine ⟨h.objects, fun c => ?_, h.answers⟩
  rw [cell_newCells]
  exact h.cells c

theorem Flat.table (h : w.Flat) (r : TableRef) : (w.table r).Storable := by
  unfold World.table
  split
  · next t ht => exact (h.objects _ _ ht).1
  · exact Table.storable_empty

/-- Every table of a flat world came about by operations. -/
theorem Flat.tablesArise (h : w.Flat) : w.TablesArise := by
  rw [tablesArise_iff]
  intro id t ht
  exact (h.objects id _ ht).2

theorem Flat.closure (h : w.Flat) (f : FunctionRef) : (w.closure f).chunk.Flat := by
  unfold World.closure
  split
  · next k hk => exact h.objects _ _ hk
  · intro ip i hi
    rw [show (default : Closure).chunk.code = #[] from rfl] at hi
    simp at hi

theorem Flat.coroutine (h : w.Flat) (r : CoroutineRef) {p : Processor}
    (hp : (w.coroutine r).processor? = some p) : p.Flat := by
  unfold World.coroutine at hp
  split at hp
  · next c hc => exact h.objects _ _ hc p hp
  · cases hp

theorem Flat.addCoroutine (h : w.Flat) (kind : CoroutineKind) (entry : Value) :
    (w.addCoroutine kind entry).2.Flat := by
  refine h.add fun p hp => ?_
  cases hp
  exact Processor.flat_of_empty rfl rfl rfl rfl

theorem Flat.noteLength (h : w.Flat) (v : Value) : (w.noteLength v).Flat := by
  unfold World.noteLength
  split
  · exact h.modifyTable _ fun t ht => ht.perform .askLength
  · exact h

/-! ## The interface -/

end

/-- What a host can do to a world by the functions the engine offers it. -/
inductive Receives [HostObjects H] : World H → World H → Prop where
  | refl (w : World H) : Receives w w
  | trans {u v w : World H} (h : Receives u v) (h' : Receives v w) : Receives u w
  /-- An operation on a table, with whatever keys and values. -/
  | perform (w : World H) (r : TableRef) (op : TableOperation) :
      Receives w (w.modifyTable r fun t => (t.perform op).2)
  | setMetatable (w : World H) (r : TableRef) (m? : Option TableRef) :
      Receives w (w.modifyTable r fun t => { t with metatable? := m? })
  /-- A new table that has been filled. -/
  | addTable (w : World H) (history : List TableOperation) :
      Receives w (w.add (.table (performAll Table.perform {} history).2))
  | addNative (w : World H) (f : Native H) : Receives w (w.add (.native f))
  | addUserData (w : World H) (o : H.Object) : Receives w (w.add (.userData o))
  | setUserObject (w : World H) (u : UserDataRef) (o : H.Object) :
      Receives w (w.setUserObject u o)
  | addCoroutine (w : World H) (kind : CoroutineKind) (entry : Value) :
      Receives w (w.addCoroutine kind entry).2
  | setAutoYield (w : World H) (r : CoroutineRef) (p : Processor) (budget? : Option Nat)
      (hp : (w.coroutine r).processor? = some p) :
      Receives w (w.modifyCoroutine r fun c =>
        { c with processor? := some (p.setAutoYield budget?) })
  /-- A function over a chunk with flat literals, in an environment that is no tuple. -/
  | load (w : World H) {env : Value} (henv : env.Single) {k : Closure} (hk : k.chunk.Flat) :
      Receives w ((w.newCell env).2.addClosure k).2
  /-- What concerns neither objects nor variables: metatables of types, requests to stop,
  lines printed, the host's own state. -/
  | aside {w w' : World H} (hobjects : w'.objects = w.objects) (hcells : w'.cells = w.cells)
      (hanswers : AnswersFlat w.host → AnswersFlat w'.host) : Receives w w'

namespace Receives

variable [HostObjects H] {fresh : CellRef → Value → Prop} {w w' : World H}

theorem flat (h : w.Receives w') (hw : w.Flat) : w'.Flat := by
  induction h with
  | refl w => exact hw
  | trans h h' ih ih' => exact ih' (ih hw)
  | perform w r op => exact hw.modifyTable r fun t ht => ht.perform op
  | setMetatable w r m? => exact hw.modifyTable r fun t ht => ht.setMetatable m?
  | addTable w history => exact hw.add (Object.flat_table (.performAll .empty history))
  | addNative w f => exact hw.add trivial
  | addUserData w o => exact hw.add trivial
  | setUserObject w u o => exact hw.setUserObject u o
  | addCoroutine w kind entry => exact hw.addCoroutine kind entry
  | setAutoYield w r p budget? hp =>
    refine hw.modifyCoroutine r fun c hc q hq => ?_
    cases hq
    have hflat := hw.coroutine r hp
    exact ⟨hflat.stack, hflat.frames, hflat.yielded, hflat.chunk⟩
  | load w henv hk => exact (hw.newCell henv.flat).add hk
  | aside hobjects hcells hanswers =>
    exact hw.of_parts hobjects hcells (hanswers hw.answers)

theorem spares (h : w.Receives w') : w.Spares fresh w' := by
  induction h with
  | refl w => exact .refl w
  | trans h h' ih ih' => exact ih.trans ih'
  | perform w r op => exact .of_cells (cells_modifyObject _ _ _)
  | setMetatable w r m? => exact .of_cells (cells_modifyObject _ _ _)
  | setUserObject w u o => exact .of_cells (cells_modifyObject _ _ _)
  | setAutoYield w r p budget? hp => exact .of_cells (cells_modifyObject _ _ _)
  | load w henv hk => exact w.spares_newCell henv
  | aside hobjects hcells hanswers => exact .of_cells hcells
  | _ => exact .of_cells rfl

/-- No tuple gets into a variable by the interface. -/
theorem keeps (h : w.Receives w') (c : CellRef) (htuple : (w'.cell c).isTuple = true) :
    w'.cell c = w.cell c := by
  have hspares : w.Spares (fun _ _ => False) w' := h.spares
  simpa using hspares c htuple

/-! ## What the interface is made of -/

theorem setNamed (w : World H) (r : TableRef) (name : String) (v : Value) :
    w.Receives (w.setNamed r name v) :=
  .perform w r (.setName name v)

theorem setGlobal (w : World H) (name : String) (v : Value) : w.Receives (w.setGlobal name v) :=
  setNamed w w.globals name v

theorem newTable (w : World H) : w.Receives w.newTable.2 := .addTable w []

theorem register {namespace? : Option String} {f : NativeRef}
    (h : w.register namespace? f = .ok w') : w.Receives w' := by
  have hmade {t : TableRef} {v : World H} (ht : w.namespaceTable namespace? = .ok (t, v)) :
      w.Receives v := by
    unfold namespaceTable at ht
    split at ht
    · cases ht
      exact .refl w
    · split at ht <;> cases ht
      · exact .refl w
      all_goals exact (newTable w).trans (setGlobal _ _ _)
  unfold World.register at h
  cases ht : w.namespaceTable namespace? with
  | error e =>
    rw [ht] at h
    cases h
  | ok made =>
    rw [ht] at h
    cases h
    exact (hmade ht).trans (setNamed _ _ _ _)

theorem loadWithEnv {chunk : Chunk} (hchunk : chunk.Flat) {env : Value} (henv : env.Single)
    {f : Value} (h : w.loadWithEnv chunk env = .ok (f, w')) : w.Receives w' := by
  unfold World.loadWithEnv at h
  split at h
  · cases h
    exact .load w henv hchunk
  · cases h

theorem createCoroutine {f : Value} {r : CoroutineRef} (h : w.createCoroutine f = .ok (r, w')) :
    w.Receives w' := by
  unfold World.createCoroutine at h
  split at h
  · cases h
    exact .addCoroutine w .script f
  · cases h

theorem setBudget {r : CoroutineRef} {budget? : Option Nat}
    (h : w.setAutoYield r budget? = .ok w') : w.Receives w' := by
  unfold World.setAutoYield at h
  split at h
  · cases h
  · next p hp =>
    cases h
    exact .setAutoYield w r p budget? hp

theorem cancel (w : World H) : w.Receives w.cancel := .aside rfl rfl id

end Receives

theorem installing_receives [HostObjects H] : Installing (World.Receives (H := H)) where
  refl := .refl
  trans := .trans
  addNative := .addNative
  newTable := Receives.newTable
  setNamed := Receives.setNamed

/-- A new world has no variables. -/
theorem single_cell_start [HostObjects H] (settings : Settings) (host : H.State) (c : CellRef) :
    ((start settings host).cell c).Single := by
  by_contra htuple
  rw [Value.Single, Bool.not_eq_false] at htuple
  have hempty := (installing_receives.installModules _ settings.modules).keeps c htuple
  change (start settings host).cell c = .nil at hempty
  simp [hempty, Value.isTuple] at htuple

/-- A new world is flat if its objects answer with flat values. -/
theorem flat_start [HostObjects H] (settings : Settings) {host : H.State}
    (hhost : AnswersFlat host) : (start settings host).Flat := by
  refine (installing_receives.installModules _ settings.modules).flat
    ⟨fun id o ho => ?_, fun c => ?_, hhost⟩
  · match id, ho with
    | 1, ho =>
      cases ho
      exact Object.flat_table .empty
    | 2, ho =>
      cases ho
      rintro p ⟨⟩
      exact Processor.flat_of_empty rfl rfl rfl rfl
    | id + 3, ho => simp [object?] at ho
  · simp [cell, Value.Flat]

end World

/-! ## Actions -/

def NativeOutcome.Flat : NativeOutcome → Prop
  | .result v => v.Flat
  | .tailCall request => ∀ v ∈ request.args, v.Flat
  | .yield v => v.Flat

/-- All that the action supplies is flat: arguments of the calls it makes, errors, and what it
ends with, of which `P` says what flat means.  It may rely on flat answers. -/
def Action.Supplies [HostObjects H] {α : Type} (P : α → Prop) : Action H α → Prop
  | .done a => P a
  | .fail e => e.Flat
  | .read next => ∀ w : World H, w.Flat → (next w).Supplies P
  | .write change next => (∀ w : World H, w.Receives (change w)) ∧ next.Supplies P
  | .call _ args next =>
      (∀ v ∈ args, v.Flat) ∧ ∀ r, FlatResult Value.Flat r → (next r).Supplies P
  | .resume _ args next =>
      (∀ v ∈ args, v.Flat) ∧ ∀ r, FlatResult Value.Flat r → (next r).Supplies P
  | .enterMain _ args next =>
      (∀ v ∈ args, v.Flat) ∧ ∀ r, FlatResult Value.Flat r → (next r).Supplies P

end ScriptEngine
