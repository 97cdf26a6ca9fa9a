import ScriptEngine.Library.Catalog

/-!
# Installing the library

A world gets the library by new functions of the host, new tables and entries of tables
under names.  Whatever order of worlds these three keep to, a world with the library comes
after the one without.
-/

namespace ScriptEngine.World

variable {H : HostTypes}

/-- An order of worlds that new functions of the host, new tables and entries under names keep
to. -/
structure Installing (R : World H → World H → Prop) : Prop where
  refl : ∀ w, R w w
  trans : ∀ {u v w}, R u v → R v w → R u w
  addNative : ∀ w f, R w (w.addNative f).2
  newTable : ∀ w : World H, R w w.newTable.2
  setNamed : ∀ w target name v, R w (w.setNamed target name v)

namespace Installing

variable {R : World H → World H → Prop}

theorem installAs (hR : Installing R) (w : World H) (target : TableRef) (name : String)
    (f : LibraryFunction) : R w (w.installAs target name f) := by
  have hadded := hR.addNative w
  exact hR.trans (hadded _) (hR.setNamed _ target name _)

theorem install (hR : Installing R) (w : World H) (target : TableRef)
    (fs : List (String × LibraryFunction)) : R w (w.install target fs) := by
  induction fs generalizing w with
  | nil => exact hR.refl w
  | cons f rest ih => exact hR.trans (hR.installAs w target f.1 f.2) (ih _)

theorem installBase (hR : Installing R) (w : World H) : R w w.installBase := by
  refine hR.trans ?_ (hR.setNamed _ w.globals "_G" _)
  refine hR.trans ?_ (hR.installAs _ w.globals "xpcall" _)
  refine hR.trans ?_ (hR.installAs _ w.globals "pcall" _)
  refine hR.trans ?_ (hR.addNative _ { name := "pcall_failed", body := _ })
  refine hR.trans ?_ (hR.addNative _ { name := "pcall_ok", body := _ })
  refine hR.trans ?_ (hR.installAs _ w.globals "ipairs" _)
  refine hR.trans ?_ (hR.addNative _ { name := "ipairs_step", body := _ })
  refine hR.trans ?_ (hR.installAs _ w.globals "pairs" _)
  refine hR.trans ?_ (hR.addNative _ { name := "next", body := _ })
  exact hR.install w w.globals baseFunctions

theorem installModule (hR : Installing R) (w : World H) (name : String)
    (fs : List (String × LibraryFunction)) : R w (w.installModule name fs) := by
  have hfilled := hR.trans (hR.newTable w) (hR.install w.newTable.2 w.newTable.1 fs)
  exact hR.trans hfilled (hR.setNamed _ _ _ _)

theorem installModules (hR : Installing R) (w : World H) (modules : ModuleSet) :
    R w (w.installModules modules) := by
  have hif (condition : Bool) (u : World H) {v : World H} (h : R u v) :
      R u (if condition then v else u) := by
    cases condition with
    | true => exact h
    | false => exact hR.refl u
  have hbase := hif modules.base w (hR.installBase w)
  have htable := hR.trans hbase (hif modules.table _ (hR.installModule _ "table" tableFunctions))
  exact hR.trans htable (hif modules.coroutine _ (hR.installModule _ _ _))

end Installing

end ScriptEngine.World
