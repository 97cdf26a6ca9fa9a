import ScriptEngine.Proofs.Machine.Results
import ScriptEngine.Proofs.Native.Simple
import ScriptEngine.Proofs.Tuple.Flat
import ScriptEngine.Proofs.World.Tables

/-!
# Tables that stand for others

A table that lacks a key may pass reads and writes on to another one.  Reading and writing
go through the same row of tables, but they stop for different reasons: reading at a table
that has the key or has no definition of reading, writing at one that has the key or has no
definition of writing.  What is written comes back when both stop at the same table, and
that is so because the table that is written to is none of those that passed the key on.
-/

namespace ScriptEngine

variable {H : HostTypes}

theorem Key.toScalar_of_ofValue?_eq_name {v : Value} {name : String}
    (h : Key.ofValue? v = some (.name name)) : v.toScalar = .string name := by
  unfold Key.ofValue? at h
  cases hv : v.toScalar with
  | number n =>
    simp only [hv, Key.ofNumber?] at h
    split_ifs at h
    all_goals cases h
  | string s => simpa [hv] using h
  | _ => simp [hv] at h

namespace Table

@[simp] theorem metatable?_growFor (t : Table) (key : Key) :
    (t.growFor key).metatable? = t.metatable? := by
  unfold growFor growLength
  repeat' split
  all_goals rfl

@[simp] theorem metatable?_shrinkFor (t : Table) (key : Key) :
    (t.shrinkFor key).metatable? = t.metatable? := by
  unfold shrinkFor shrinkLength
  repeat' split
  all_goals rfl

/-- Writing an entry leaves the metatable alone. -/
@[simp] theorem metatable?_setKey (t : Table) (key : Key) (written value : Value) :
    (t.setKey key written value).metatable? = t.metatable? := by
  unfold setKey
  cases t.index.find? key with
  | none =>
    dsimp only
    split_ifs <;> simp [appendEntry, sweep]
  | some place =>
    dsimp only
    split_ifs <;> simp [appendEntry, setAt, sweep]

end Table

namespace World

variable {w w' : World H} {r s : TableRef} {rest : List TableRef} {key value : Value} {k : Key}

/-! ## One entry -/

/-- There is such a table. -/
def HasTable (w : World H) (r : TableRef) : Prop := ∃ t, w.object? r.id = some (.table t)

/-- The second world is the first one with a value under a key of one of its tables. -/
structure Writes (w w' : World H) (r : TableRef) (k : Key) (value : Value) : Prop where
  written : (w'.table r).getKey k = value
  entries : ∀ other, other ≠ k → (w'.table r).getKey other = (w.table r).getKey other
  metatable : (w'.table r).metatable? = (w.table r).metatable?
  tables : ∀ s, s ≠ r → w'.table s = w.table s
  objects : ∀ id, id ≠ r.id → w'.object? id = w.object? id
  remainder : w' = { w with objects := w'.objects }

theorem writes_assign {written : Value} (hr : w.HasTable r) (ht : (w.table r).Consistent)
    (hkey : Key.ofValue? written = some k) (hwritten : written.toScalar = written)
    (hvalue : value.toStorable = value) :
    Writes w (w.assign (.entry r k written value)) r k value := by
  obtain ⟨t, hobject⟩ := hr
  have hbefore : w.table r = t := by
    simp [table, hobject]
  have hafter : (w.assign (.entry r k written value)).table r = t.setKey k written value :=
    table_modifyTable_self _ hobject
  rw [hbefore] at ht
  have hread := ht.getKey_setKey hkey hwritten hvalue
  constructor
  case written => simp [hafter, hread]
  case entries =>
    intro other hother
    simp [hafter, hbefore, hread, hother]
  case metatable => simp [hafter, hbefore]
  case tables =>
    intro s hs
    exact table_modifyTable_of_ne w _ hs.symm
  case objects =>
    intro id hid
    simp [assign, modifyTable, object?_modifyObject, hid.symm]
  case remainder =>
    cases r with
    | mk id => cases id <;> rfl

/-- Definitions of operators stay what they were unless one of them is the entry written. -/
theorem Writes.metatableHook? (h : Writes w w' r k value) {op : Operator}
    (hop : k ≠ .name op.field) (v : Value) :
    w'.metatableHook? v op = w.metatableHook? v op := by
  have htypes : w'.typeMetatables = w.typeMetatables := by
    rw [h.remainder]
  have hmetatable : w'.metatable? v = w.metatable? v := by
    cases v with
    | table s =>
      by_cases hs : s = r
      · subst hs
        exact h.metatable
      · simp [World.metatable?, h.tables s hs]
    | _ =>
      simp [World.metatable?, typeMetatable?, htypes]
  have hname : ∀ m, (w'.table m).getName op.field = (w.table m).getName op.field := by
    intro m
    by_cases hm : m = r
    · subst hm
      exact h.entries _ hop.symm
    · rw [h.tables m hm]
  simp [World.metatableHook?, hmetatable, hname]

/-! ## Rows of tables -/

/-- The table itself has something under the key. -/
def Holds (w : World H) (key : Value) (r : TableRef) : Prop :=
  ((w.table r).get key).isNil = false

instance (w : World H) (key : Value) (r : TableRef) : Decidable (w.Holds key r) :=
  inferInstanceAs (Decidable (_ = _))

/-- What the table lacks it passes on to another one, to read as well as to write. -/
structure Delegates (w : World H) (r s : TableRef) : Prop where
  index : w.metatableHook? (.table r) .index = some (.table s)
  newIndex : w.metatableHook? (.table r) .newIndex = some (.table s)

/-- The table passes nothing on. -/
structure Keeps (w : World H) (r : TableRef) : Prop where
  index : w.metatableHook? (.table r) .index = none
  newIndex : w.metatableHook? (.table r) .newIndex = none

/-- A table and those behind it: each one that lacks the key passes it on to the next, and the
last one has the key or passes nothing on. -/
inductive Row (w : World H) (key : Value) : TableRef → List TableRef → Prop where
  | last {r : TableRef} (htable : w.HasTable r) (h : w.Holds key r ∨ w.Keeps r) : Row w key r []
  | next {r s : TableRef} {rest : List TableRef} (htable : w.HasTable r)
      (h : ¬ w.Holds key r → w.Delegates r s) (hrest : Row w key s rest) : Row w key r (s :: rest)

/-- The first table of a row that has the key, else the last one. -/
def keeper (w : World H) (key : Value) : TableRef → List TableRef → TableRef
  | r, [] => r
  | r, s :: rest => if w.Holds key r then r else keeper w key s rest

namespace Row

theorem hasTable_keeper (h : Row w key r rest) : w.HasTable (w.keeper key r rest) := by
  induction h with
  | last htable _ => exact htable
  | next htable _ _ ih =>
    unfold keeper
    split
    · exact htable
    · exact ih

/-- The table at which a row ends does not pass the key on. -/
theorem keeper_holds_or_keeps (h : Row w key r rest) :
    w.Holds key (w.keeper key r rest) ∨ w.Keeps (w.keeper key r rest) := by
  induction h with
  | last _ h => exact h
  | next _ _ _ ih =>
    unfold keeper
    split
    · next hholds => exact .inl hholds
    · exact ih

/-- A table that passes the key on is not the one at which the row behind it ends. -/
theorem ne_keeper (h : Row w key s rest) (hlacks : ¬ w.Holds key r) (hr : w.Delegates r s) :
    r ≠ w.keeper key s rest := by
  intro heq
  rcases h.keeper_holds_or_keeps with hholds | hkeeps
  · exact hlacks (heq ▸ hholds)
  · have hnone := hkeeps.index
    rw [← heq, hr.index] at hnone
    cases hnone

section

variable [HostObjects H]

/-- Writing ends at the keeper. -/
theorem setIndexWithin (h : Row w key r rest) (hkey : Key.ofValue? key = some k) {hops : Nat}
    (hhops : rest.length < hops) :
    w.setIndexWithin key value hops (.table r) =
      .ok (.entry (w.keeper key r rest) k key.toScalar value) := by
  induction h generalizing hops with
  | @last r _ h =>
    obtain ⟨hops, rfl⟩ := Nat.exists_eq_add_of_lt hhops
    have hhook : (if ((w.table r).get key).isNil then
        w.metatableHook? (.table r) .newIndex else none) = none := by
      rcases h with hholds | hkeeps
      · simp [show ((w.table r).get key).isNil = false from hholds]
      · simp [hkeeps.newIndex]
    simp [World.setIndexWithin, hhook, hkey, keeper]
  | @next r s rest _ h _ ih =>
    obtain ⟨hops, rfl⟩ := Nat.exists_eq_add_of_lt hhops
    by_cases hholds : w.Holds key r
    · have hnil : ((w.table r).get key).isNil = false := hholds
      simp [World.setIndexWithin, hnil, hkey, keeper, hholds]
    · have hnil : ((w.table r).get key).isNil = true := by
        simpa [Holds] using hholds
      have hfewer : rest.length < rest.length + 1 + hops := by omega
      have hnext := ih hfewer
      simpa [World.setIndexWithin, hnil, (h hholds).newIndex, Value.isCallable, keeper, hholds]
        using hnext

/-- Once the keeper has a value under the key, reading ends there, too. -/
theorem indexWithin (h : Row w key r rest) (hkey : Key.ofValue? key = some k)
    (hwrites : Writes w w' (w.keeper key r rest) k value)
    (hindex : k ≠ .name Operator.index.field) (hvalue : value.isNil = false) {hops : Nat}
    (hhops : rest.length < hops) :
    w'.indexWithin key hops (.table r) = .ok (.value value) := by
  have hget (u : World H) (r : TableRef) : (u.table r).get key = (u.table r).getKey k := by
    simp [Table.get, hkey]
  have hread : (w'.table (w.keeper key r rest)).get key = value := by
    rw [hget, hwrites.written]
  -- The tables before the keeper have not been written to, so reading passes them as writing
  -- did.
  induction h generalizing hops with
  | @last r _ h =>
    obtain ⟨hops, rfl⟩ := Nat.exists_eq_add_of_lt hhops
    rw [keeper] at hread
    simp [World.indexWithin, hread, hvalue]
  | @next r s rest _ h hrest ih =>
    obtain ⟨hops, rfl⟩ := Nat.exists_eq_add_of_lt hhops
    by_cases hholds : w.Holds key r
    · rw [keeper, if_pos hholds] at hread
      simp [World.indexWithin, hread, hvalue]
    · have hdelegates := h hholds
      rw [keeper, if_neg hholds] at hwrites hread
      have hother : w'.table r = w.table r :=
        hwrites.tables r (hrest.ne_keeper hholds hdelegates)
      have hnil : ((w.table r).get key).isNil = true := by
        simpa [Holds] using hholds
      have hhook : w'.metatableHook? (.table r) .index = some (.table s) := by
        rw [hwrites.metatableHook? hindex, hdelegates.index]
      have hfewer : rest.length < rest.length + 1 + hops := by omega
      have hnext := ih hwrites hfewer hread
      simpa [World.indexWithin, hother, hnil, hhook, Value.isCallable] using hnext

end

end Row

end World

/-! ## Instructions -/

namespace Exec

variable [HostObjects H] {c : Core H}

/-- The call of a metamethod begins without a change of the world. -/
theorem world_callPending (p : PendingCall) (c : Core H) :
    (resultCore (callPending p c)).world = c.world := by
  rw [callPending, run_bind_of_ok (askProc_run _ c)]
  have hcalled := called_call p.function p.args {} c.proc.ip (.ofPost p.post) c
  generalize call p.function p.args {} c.proc.ip (.ofPost p.post) c = result at hcalled ⊢
  cases hcalled <;> rfl

theorem world_getIndex (object key : Value) (c : Core H) :
    (resultCore (getIndex object key c)).world = c.world := by
  rw [getIndex, run_bind_of_ok (ask_run _ c)]
  cases c.world.resolveIndex object key with
  | error e => rfl
  | ok resolved =>
    cases resolved with
    | value v => rfl
    | call p => exact world_callPending p c

theorem setIndex_of_error {object key value : Value} {e : RuntimeError}
    (h : c.world.resolveSetIndex object key value = .error e) :
    setIndex object key value c = .error e c := by
  rw [setIndex, run_bind_of_ok (ask_run _ c), h]
  rfl

theorem setIndex_of_call {object key value : Value} {p : PendingCall}
    (h : c.world.resolveSetIndex object key value = .ok (.call p)) :
    setIndex object key value c = callPending p c := by
  rw [setIndex, run_bind_of_ok (ask_run _ c), h]
  rfl

theorem setIndex_of_entry {object key value written stored : Value} {r : TableRef} {k : Key}
    (h : c.world.resolveSetIndex object key value = .ok (.entry r k written stored)) :
    setIndex object key value c =
      .ok .proceed { c with world := c.world.assign (.entry r k written stored) } := by
  rw [setIndex, run_bind_of_ok (ask_run _ c), h]
  rfl

/-- What is written at the first table of a row goes into one entry of the keeper and is read
at the first table afterwards. -/
theorem reads_after_write (hw : c.world.TablesArise) {r : TableRef} {rest : List TableRef}
    {key value : Value} (hrow : c.world.Row key r rest) (hlength : rest.length < World.maxIndexHops)
    (hkey : key.Single ∧ ¬ key.isNoKey) (hindex : key ≠ .string Operator.index.field)
    (hvalue : value.Single ∧ value.isNil = false) :
    ∃ k c', Key.ofValue? key = some k ∧
      setIndex (.table r) key value c = .ok .proceed c' ∧
      c'.proc = c.proc ∧
      c.world.Writes c'.world (c.world.keeper key r rest) k value ∧
      c'.world.resolveIndex (.table r) key = .ok (.value value) := by
  obtain ⟨k, hk⟩ : ∃ k, Key.ofValue? key = some k := by
    apply Option.ne_none_iff_exists'.mp
    simpa [Key.ofValue?_eq_none_iff] using hkey.2
  have hscalar : key.toScalar = key := Value.toScalar_eq_self (Value.single_iff.mp hkey.1)
  have hstorable : value.toStorable = value :=
    Value.toStorable_eq_self (Value.single_iff.mp hvalue.1) hvalue.2
  have hname : k ≠ .name Operator.index.field := by
    rintro rfl
    have hstring := Key.toScalar_of_ofValue?_eq_name hk
    exact hindex (hscalar.symm.trans hstring)
  have htable : (Value.table r).toScalar = .table r := Value.toScalar_eq_self (by simp)
  have hresolve : c.world.resolveSetIndex (.table r) key value =
      .ok (.entry (c.world.keeper key r rest) k key value) := by
    rw [World.resolveSetIndex, hstorable, htable, hrow.setIndexWithin hk hlength, hscalar]
  have hwrites := World.writes_assign hrow.hasTable_keeper (hw.consistent _) hk hscalar hstorable
  refine ⟨k, _, hk, setIndex_of_entry hresolve, rfl, hwrites, ?_⟩
  rw [World.resolveIndex, htable]
  exact hrow.indexWithin hk hwrites hname hvalue.2 hlength

/-- A value written at the first table of a row is read there again; reading changes nothing,
nor does writing that fails or leaves the rest to a call. -/
theorem proxies_agree (hw : c.world.TablesArise) :
    (∀ r rest key value, c.world.Row key r rest → rest.length < World.maxIndexHops →
      (key.Single ∧ ¬ key.isNoKey) → key ≠ .string Operator.index.field →
      (value.Single ∧ value.isNil = false) →
        ∃ k c', Key.ofValue? key = some k ∧
          setIndex (.table r) key value c = .ok .proceed c' ∧
          c'.proc = c.proc ∧
          c.world.Writes c'.world (c.world.keeper key r rest) k value ∧
          c'.world.resolveIndex (.table r) key = .ok (.value value)) ∧
      (∀ object key, (resultCore (getIndex object key c)).world = c.world) ∧
      (∀ object key value e, c.world.resolveSetIndex object key value = .error e →
        setIndex object key value c = .error e c) ∧
      (∀ object key value p, c.world.resolveSetIndex object key value = .ok (.call p) →
        (resultCore (setIndex object key value c)).world = c.world) := by
  refine ⟨?_, fun object key => world_getIndex object key c, ?_, ?_⟩
  · intro r rest key value hrow hlength hkey hindex hvalue
    exact reads_after_write hw hrow hlength hkey hindex hvalue
  · intro object key value e h
    exact setIndex_of_error h
  · intro object key value p h
    rw [setIndex_of_call h]
    exact world_callPending p c

end Exec

/-! ## A row of two -/

namespace World

/-- Passes everything on to the third object. -/
def passing : Table :=
  (({} : Table).setName "__index" (.table ⟨3⟩)).setName "__newindex" (.table ⟨3⟩)

/-- The first table has the second as its metatable, which passes on to the third. -/
def proxied : World HostTypes.alone where
  objects := #[.table { metatable? := some ⟨2⟩ }, .table passing, .table {}]
  globals := ⟨3⟩
  main := ⟨0⟩
  settings := {}
  host := ()

theorem tablesArise_proxied : proxied.TablesArise := by
  have hpassing : passing.Arises :=
    (Table.Arises.empty.perform (.setName "__index" (.table ⟨3⟩))).perform
      (.setName "__newindex" (.table ⟨3⟩))
  rw [tablesArise_iff]
  intro id t hobject
  rcases id with _ | _ | _ | _ | id
  · cases hobject
  · cases hobject
    exact .setMetatable .empty _
  · cases hobject
    exact hpassing
  · cases hobject
    exact .empty
  · simp [object?, proxied] at hobject

theorem row_proxied : proxied.Row (.number 1) ⟨1⟩ [⟨3⟩] := by
  refine .next ⟨_, rfl⟩ (fun _ => ⟨?_, ?_⟩) (.last ⟨_, rfl⟩ (.inr ⟨?_, ?_⟩))
  all_goals decide +kernel

theorem proxies_agree_proxied :
    proxied.TablesArise ∧ proxied.Row (.number 1) ⟨1⟩ [⟨3⟩] ∧
      ∃ k c', Key.ofValue? (.number 1) = some k ∧
        Exec.setIndex (.table ⟨1⟩) (.number 1) (.boolean true) ⟨proxied, {}⟩ =
          .ok .proceed c' ∧
        proxied.Writes c'.world ⟨3⟩ k (.boolean true) ∧
        c'.world.resolveIndex (.table ⟨1⟩) (.number 1) = .ok (.value (.boolean true)) := by
  refine ⟨tablesArise_proxied, row_proxied, ?_⟩
  have hkey : Value.Single (.number 1) ∧ ¬ Value.isNoKey (.number 1) := by
    rw [← Key.ofValue?_eq_none_iff]
    decide +kernel
  have hkeeper : proxied.keeper (.number 1) ⟨1⟩ [⟨3⟩] = ⟨3⟩ := by
    decide +kernel
  obtain ⟨k, c', hk, hset, -, hwrites, hread⟩ :=
    (Exec.proxies_agree (c := ⟨proxied, {}⟩) tablesArise_proxied).1 ⟨1⟩ [⟨3⟩] (.number 1)
      (.boolean true) row_proxied (by decide) hkey (by simp) ⟨rfl, rfl⟩
  rw [hkeeper] at hwrites
  exact ⟨k, c', hk, hset, hwrites, hread⟩

end World

end ScriptEngine
