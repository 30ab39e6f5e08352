import QuantumScript.Proofs.Run.Limit
import QuantumScript.Proofs.Run.Renaming

/-!
# Renaming is safe

A program does the same from a fresh session after one of its variables is renamed, if the new name
is used nowhere and neither name is one of the library or of a function that the program declares
(`Session.run_renamed`). The outcome is the same, but for the name of a variable that is not
defined; the same is shown, and the bindings are the same but for the name.
-/

namespace QuantumScript

variable {ρ : Renaming}

/-- The scopes of a renamed store are renamed. -/
theorem Store.scope?_renamed (store : Store) (id : ScopeId) :
    (store.renamed ρ).scope? id = (store.scope? id).map (Scope.renamed ρ) := by
  simp [scope?, renamed]

/-- The names bound in a renamed store are the new names, in some order. -/
theorem Store.names_renamed (store : Store) (id : ScopeId) :
    ((store.renamed ρ).names id).Perm ((store.names id).map ρ.name) := by
  unfold names
  rw [scope?_renamed]
  cases store.scope? id with
  | none => exact .refl _
  | some scope =>
    have hnames : (scope.renamed ρ).bindings.map Prod.fst =
        (scope.bindings.map Prod.fst).map ρ.name := by
      simp [Scope.renamed, renamedBindings]
    show ((scope.renamed ρ).bindings.map Prod.fst).mergeSort.Perm
      ((scope.bindings.map Prod.fst).mergeSort.map ρ.name)
    rw [hnames]
    exact (List.mergeSort_perm _ _).trans ((List.mergeSort_perm _ _).symm.map ρ.name)

/-- The names bound in a covered store are covered. -/
theorem Store.Covered.names {store : Store} (h : store.Covered ρ) (id : ScopeId) :
    ∀ name ∈ store.names id, ρ.covers name := by
  unfold Store.names
  cases hscope : store.scope? id with
  | none => nofun
  | some scope =>
    intro name hname
    obtain ⟨binding, hbinding, rfl⟩ := List.mem_map.1 (Scope.mem_names.1 hname)
    exact h.scopes scope (Array.mem_of_getElem? hscope) binding hbinding

namespace Session

/-- The bindings of a session with renamed variables are renamed, in some order. -/
theorem bindings_renamed {session : Session} (h : session.machine.store.Covered ρ) :
    ({ session with machine := session.machine.renamed ρ } : Session).bindings.Perm
      (renamedBindings ρ session.bindings) := by
  unfold renamedBindings bindings
  refine ((Store.names_renamed session.machine.store Store.globalScope).filterMap _).trans
    (.of_eq ?_)
  rw [List.filterMap_map, List.map_filterMap]
  refine List.filterMap_congr fun name hname => ?_
  have hget : (session.machine.renamed ρ).store.get? Store.globalScope (ρ.name name) =
      session.machine.store.get? Store.globalScope name :=
    Store.get?_renamed h (h.names Store.globalScope name hname)
  dsimp only [Function.comp]
  rw [hget]
  cases session.machine.store.get? Store.globalScope name with
  | none => rfl
  | some value => cases value <;> rfl

/-- Library functions whose names are left are bound in the same way in a renamed store. -/
theorem libraryStore_renamed {natives : List Native}
    (h : ∀ f ∈ natives, ρ.covers f.name ∧ ρ.name f.name = f.name) :
    (libraryStore natives).Covered ρ ∧ (libraryStore natives).renamed ρ = libraryStore natives := by
  refine libraryStore_rec (motive := fun store => store.Covered ρ ∧ store.renamed ρ = store)
    ⟨⟨fun scope hscope => ?_, fun f hf => ?_⟩, ?_⟩ fun store hstore f hf => ?_
  · have hempty : scope = ⟨none, []⟩ := by simpa [Store.initial] using hscope
    rw [hempty]
    exact fun binding hbinding => absurd hbinding List.not_mem_nil
  · exact absurd hf (Array.not_mem_empty f)
  · simp [Store.renamed, Store.initial, Scope.renamed, renamedBindings]
  · obtain ⟨hcovered, hrenamed⟩ := hstore
    obtain ⟨hcovers, hname⟩ := h f hf
    refine ⟨hcovered.define hcovers, ?_⟩
    rw [← Store.define_renamed hcovered hcovers, hname, hrenamed]

/-- A program from a fresh session, with any library functions, limit, fuel, input and draws, and
the same program with the variable `y` in the place of `x`, where `y` is no variable of the program
and neither is the name of a library function or of a function that the program declares. The
outcome is the same, but for the name of a variable that is not defined, and the machine that is
left is the same with renamed variables: what was shown, what is left of the input, the arrays and
the objects are the same, every value is shown in the same way, and the bindings are the same with
that of `x` under `y`. -/
theorem run_renamed (natives : List Native) (limit fuel : Nat) (input : List String) (dice : Dice)
    (program : Program) (x y : String) (hx : ∀ f ∈ natives, f.name ≠ x)
    (hxf : x ∉ program.functions) (hy : ∀ f ∈ natives, f.name ≠ y)
    (hyf : y ∉ program.functions) (hyv : y ∉ program.variables) :
    let ran := (start natives limit fuel input dice).run program
    let other := (start natives limit fuel input dice).run (program.renamed (.single x y))
    other.1 = ran.1.renamed (.single x y) ∧
      other.2.machine = ran.2.machine.renamed (.single x y) ∧
      other.2.machine.console = ran.2.machine.console ∧
      other.2.machine.store.arrays = ran.2.machine.store.arrays ∧
      other.2.machine.store.objects = ran.2.machine.store.objects ∧
      (∀ value, other.2.machine.store.display value = ran.2.machine.store.display value) ∧
      other.2.bindings.Perm (renamedBindings (.single x y) ran.2.bindings) := by
  intro ran other
  obtain ⟨hcovered, hlibrary⟩ := @libraryStore_renamed (.single x y) natives fun f hf =>
    ⟨hy f hf, if_neg (hx f hf)⟩
  have hmachine : (start natives limit fuel input dice).machine.renamed (.single x y) =
      (start natives limit fuel input dice).machine :=
    congrArg (fun store => { (start natives limit fuel input dice).machine with store }) hlibrary
  obtain ⟨hafter, hrun⟩ :=
    Eval.runProgram_renames limit fuel .null (Renaming.covers_single hyv hyf hxf)
      (start natives limit fuel input dice).machine hcovered
  rw [hmachine] at hrun
  have houtcome : other.1 = ran.1.renamed (.single x y) := congrArg Prod.fst hrun
  have hleft : other.2.machine = ran.2.machine.renamed (.single x y) := congrArg Prod.snd hrun
  have hsession : other.2 = { ran.2 with machine := ran.2.machine.renamed (.single x y) } :=
    congrArg (fun machine => { ran.2 with machine }) hleft
  refine ⟨houtcome, hleft, by rw [hleft]; rfl, by rw [hleft]; rfl, by rw [hleft]; rfl,
    fun value => ?_, ?_⟩
  · rw [hleft]
    exact ran.2.machine.store.display_renamed value
  · rw [hsession]
    exact bindings_renamed hafter

/-- A program with a function of one parameter, which is called, and a variable of the same name,
which is not defined. -/
def echoProgram : Program :=
  [.function "f" ["x"] [.giveBack (some (.name "x" ⟨25, 26, 1, 26⟩)) ⟨18, 24, 1, 19⟩] ⟨0, 8, 1, 1⟩,
   .expr (.call (.name "f" ⟨29, 30, 2, 1⟩) [.text "a" ⟨31, 34, 2, 3⟩] ⟨29, 35, 2, 1⟩),
   .expr (.name "x" ⟨36, 37, 3, 1⟩)]

/-- With the parameter renamed, so is the variable that is not defined. -/
theorem run_renamed_echo :
    ((start Native.library 8 8 [] .zeros).run (echoProgram.renamed (.single "x" "y"))).1 =
      .failed ⟨.undefinedVariable "y", some ⟨36, 37, 3, 1⟩⟩ := by
  have hran : ((start Native.library 8 8 [] .zeros).run echoProgram).1 =
      .failed ⟨.undefinedVariable "x", some ⟨36, 37, 3, 1⟩⟩ := by
    decide +kernel
  have hrenamed := run_renamed Native.library 8 8 [] .zeros echoProgram "x" "y" (by decide)
    (by decide) (by decide) (by decide) (by decide)
  rw [hrenamed.1, hran]
  rfl

end Session

end QuantumScript
