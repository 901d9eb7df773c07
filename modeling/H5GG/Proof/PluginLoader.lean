import H5GG.PluginLoader
import H5GG.Library.Machine
import Mathlib.Data.List.Nodup

/-!
# Handles and objects of plugins
-/

namespace H5GG
namespace PluginLoader
variable {Handle Object Json : Type}

theorem mem_of_lookup {Value : Type*} {entries : List (String × Value)} {key : String}
    {value : Value} (found : entries.lookup key = some value) : (key, value) ∈ entries := by
  obtain ⟨front, back, rfl, -⟩ := List.lookup_eq_some_iff.mp found
  exact List.mem_append_right front (.head back)

/-- The open handles, and the objects by their ids. -/
structure Keeps (loader : PluginLoader Handle Object) : Prop where
  opened : loader.libraryHandles =
    loader.asked.filterMap fun entry => entry.2.map fun handle => (entry.1, handle)
  once : loader.asked.Pairwise fun earlier later => earlier.2.isSome → later.1 ≠ earlier.1
  created : ∀ entry ∈ loader.pluginObjects, entry ∈ loader.created
  kept : ∀ entry ∈ loader.created, entry ∈ loader.pluginObjects
  invoked : ∀ call ∈ loader.invoked, (call.1, call.2.1) ∈ loader.created
  closed : loader.closed = []

theorem keeps_init : ({} : PluginLoader Handle Object).Keeps :=
  ⟨rfl, .nil, nofun, nofun, nofun, rfl⟩

variable {loader : PluginLoader Handle Object}

theorem Keeps.loadLibrary (keeps : loader.Keeps) (path : String) (answer : LibraryAnswer Handle) :
    (loader.loadLibrary path answer).2.Keeps := by
  unfold PluginLoader.loadLibrary
  split
  · exact keeps
  · rename_i absent
    refine ⟨?_, ?_, keeps.created, keeps.kept, keeps.invoked, keeps.closed⟩
    · rw [List.filterMap_append, ← keeps.opened]
      cases answer.handle <;> rfl
    · rw [List.pairwise_append]
      refine ⟨keeps.once, List.pairwise_singleton _ _, fun earlier among later only succeeded => ?_⟩
      rw [List.mem_singleton.mp only]
      rintro rfl
      obtain ⟨handle, held⟩ := Option.isSome_iff_exists.mp succeeded
      rw [List.lookup_eq_none_iff, keeps.opened] at absent
      have open' := absent (earlier.1, handle)
        (List.mem_filterMap.mpr ⟨earlier, among, by rw [held]; rfl⟩)
      simp at open'

theorem Keeps.createPlugin (keeps : loader.Keeps) (request : PluginRequest Handle Object) :
    (loader.createPlugin request).2.Keeps := by
  unfold PluginLoader.createPlugin
  cases request.creation with
  | missing => exact keeps
  | throws reason => exact keeps
  | nothing => exact keeps
  | creates object conforms =>
      dsimp only
      split
      · exact keeps
      · split
        · exact keeps
        · refine ⟨keeps.opened, keeps.once, fun entry among => ?_, fun entry among => ?_,
            fun call among => List.mem_append_left _ (keeps.invoked call among), keeps.closed⟩
          · rcases List.mem_cons.mp among with rfl | old
            · exact List.mem_append_right _ (.head [])
            · exact List.mem_append_left _ (keeps.created entry old)
          · rcases List.mem_append.mp among with old | new
            · exact .tail _ (keeps.kept entry old)
            · rw [List.mem_singleton.mp new]
              exact .head _

theorem Keeps.loadPluginClass (keeps : loader.Keeps) (resolve : String → String)
    (request : PluginRequest Handle Object) : (loader.loadPluginClass resolve request).2.Keeps := by
  unfold PluginLoader.loadPluginClass
  have library := keeps.loadLibrary (resolve request.path) request.library
  split
  · exact keeps
  · split
    · exact keeps
    · dsimp only
      split
      · rename_i failed
        rwa [failed] at library
      · rename_i opened
        rw [opened] at library
        split
        · exact library
        · exact library.createPlugin request

theorem Keeps.callPlugin (keeps : loader.Keeps) (call : PluginCall Json) :
    (loader.callPlugin call).2.Keeps := by
  unfold PluginLoader.callPlugin
  split
  · exact keeps
  · split
    · exact keeps
    · rename_i plugin found
      split
      · exact keeps
      · split
        · exact keeps
        · have called : { loader with
              invoked := loader.invoked ++ [(call.pluginId, plugin, call.method)] }.Keeps := by
            refine ⟨keeps.opened, keeps.once, keeps.created, keeps.kept, fun past among => ?_,
              keeps.closed⟩
            rcases List.mem_append.mp among with old | new
            · exact keeps.invoked past old
            · rw [List.mem_singleton.mp new]
              exact keeps.created _ (mem_of_lookup found)
          cases call.answer with
          | throws reason => exact called
          | fails description => exact called
          | returns result serializable => cases serializable <;> exact called

theorem keeps_run (resolve : String → String) (events : List (PluginEvent Handle Object Json)) :
    (execute (PluginEvent.step resolve) events ({} : PluginLoader Handle Object)).Keeps := by
  apply execute_invariant Keeps _ events keeps_init
  intro event loader keeps
  cases event with
  | loads request => exact keeps.loadPluginClass resolve request
  | calls call => exact keeps.callPlugin call

theorem Keeps.values_eq (keeps : loader.Keeps) :
    loader.libraryHandles.map Prod.snd = loader.asked.filterMap Prod.snd := by
  rw [keeps.opened, List.map_filterMap]
  apply List.filterMap_congr
  rintro ⟨path, handle⟩ -
  cases handle <;> rfl

/-- The library loader is not asked again for a path it has opened, and every handle it gave is
closed once, when the plugin loader goes, in whichever order the dictionary lists them. -/
theorem handles_closed_once (resolve : String → String)
    (events : List (PluginEvent Handle Object Json)) (allValues : AllValues Handle) :
    (execute (PluginEvent.step resolve) events ({} : PluginLoader Handle Object)).asked.Pairwise
        (fun earlier later => earlier.2.isSome → later.1 ≠ earlier.1) ∧
      (execute (PluginEvent.step resolve) events ({} : PluginLoader Handle Object)).closed = [] ∧
      ((execute (PluginEvent.step resolve) events
          ({} : PluginLoader Handle Object)).dealloc allValues).closed.Perm
        ((execute (PluginEvent.step resolve) events
          ({} : PluginLoader Handle Object)).asked.filterMap Prod.snd) := by
  have keeps := keeps_run resolve events
  refine ⟨keeps.once, keeps.closed, ?_⟩
  rw [dealloc, keeps.closed, List.nil_append, ← keeps.values_eq]
  exact allValues.perm _

/-- Which object a call comes to, and what it leaves. -/
structure Reaches (loader : PluginLoader Handle Object) (call : PluginCall Json) : Prop where
  unknown : (∀ object, (call.pluginId, object) ∉ loader.created) →
    loader.callPlugin call = (.failed "Unknown plugin handle", loader)
  object : ∀ object, (call.pluginId, object) ∈ loader.created → call.pluginId ≠ "" →
    call.method ≠ "" → call.arguments ≠ none → call.serializable = true →
    (loader.callPlugin call).2 =
      { loader with invoked := loader.invoked ++ [(call.pluginId, object, call.method)] }
  result : ∀ value, (loader.callPlugin call).1 = .result value →
    call.answer = .returns value true ∧ ∃ object, (call.pluginId, object) ∈ loader.created

theorem Keeps.lookup_created (keeps : loader.Keeps)
    (distinct : (loader.created.map Prod.fst).Nodup) {id : String} {object : Object}
    (created : (id, object) ∈ loader.created) : loader.pluginObjects.lookup id = some object := by
  cases found : loader.pluginObjects.lookup id with
  | none =>
      rw [List.lookup_eq_none_iff] at found
      have := found (id, object) (keeps.kept _ created)
      simp at this
  | some other =>
      have other' := keeps.created _ (mem_of_lookup found)
      have same := List.inj_on_of_nodup_map distinct other' created rfl
      rw [(Prod.mk.inj same).2]

/-- With ids that differ, a call reaches the object that its id was given out for, at any later
time, and no other. -/
theorem calls_reach (resolve : String → String) (events : List (PluginEvent Handle Object Json))
    (distinct : ((execute (PluginEvent.step resolve) events
      ({} : PluginLoader Handle Object)).created.map Prod.fst).Nodup) :
    (∀ call : PluginCall Json, Reaches (execute (PluginEvent.step resolve) events {}) call) ∧
      ∀ call ∈ (execute (PluginEvent.step resolve) events
          ({} : PluginLoader Handle Object)).invoked,
        (call.1, call.2.1) ∈ (execute (PluginEvent.step resolve) events
          ({} : PluginLoader Handle Object)).created := by
  have keeps := keeps_run resolve events
  refine ⟨fun call => ⟨fun absent => ?_, ?_, ?_⟩, keeps.invoked⟩
  · have missing : (execute (PluginEvent.step resolve) events
        ({} : PluginLoader Handle Object)).pluginObjects.lookup call.pluginId = none := by
      rw [Option.eq_none_iff_forall_ne_some]
      exact fun object found => absent object (keeps.created _ (mem_of_lookup found))
    unfold callPlugin
    rw [missing]
    split <;> rfl
  · intro object created named method arguments serializable
    unfold callPlugin
    rw [keeps.lookup_created distinct created, if_neg named]
    simp only [method, arguments, serializable, or_self, if_false, Bool.not_true,
      Bool.false_eq_true]
    cases call.answer with
    | throws reason => rfl
    | fails description => rfl
    | returns result kept => cases kept <;> rfl
  · intro value replied
    unfold callPlugin at replied
    split at replied
    · cases replied
    · split at replied
      · cases replied
      · rename_i plugin found
        split at replied
        · cases replied
        · split at replied
          · cases replied
          · refine ⟨?_, plugin, keeps.created _ (mem_of_lookup found)⟩
            cases answered : call.answer with
            | throws reason => rw [answered] at replied; cases replied
            | fails description => rw [answered] at replied; cases replied
            | returns result kept =>
                rw [answered] at replied
                cases kept with
                | false => cases replied
                | true => cases replied; rfl

/-- The first plugin is called after the second was loaded. -/
theorem calls_reach_echo :
    Reaches (execute (PluginEvent.step id)
        [(.loads ⟨"Echo", "/e.dylib", .jsonRPC, ⟨some 1, none⟩, .creates 7 true, "A"⟩ :
          PluginEvent Nat Nat Nat),
          .loads ⟨"Other", "/o.dylib", .jsonRPC, ⟨some 2, none⟩, .creates 8 true, "B"⟩,
          .calls ⟨"A", "echo", some [3], true, .returns (some 3) true⟩]
        ({} : PluginLoader Nat Nat))
      ⟨"A", "echo", some [4], true, .returns (some 4) true⟩ ∧
      (execute (PluginEvent.step id)
        [(.loads ⟨"Echo", "/e.dylib", .jsonRPC, ⟨some 1, none⟩, .creates 7 true, "A"⟩ :
          PluginEvent Nat Nat Nat),
          .loads ⟨"Other", "/o.dylib", .jsonRPC, ⟨some 2, none⟩, .creates 8 true, "B"⟩,
          .calls ⟨"A", "echo", some [3], true, .returns (some 3) true⟩]
        ({} : PluginLoader Nat Nat)).invoked = [("A", 7, "echo")] :=
  ⟨(calls_reach id
      [.loads ⟨"Echo", "/e.dylib", .jsonRPC, ⟨some 1, none⟩, .creates 7 true, "A"⟩,
        .loads ⟨"Other", "/o.dylib", .jsonRPC, ⟨some 2, none⟩, .creates 8 true, "B"⟩,
        .calls ⟨"A", "echo", some [3], true, .returns (some 3) true⟩]
      (by decide)).1 _, by decide⟩

end PluginLoader
end H5GG
