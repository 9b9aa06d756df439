import JobBinding.Proofs.Scenario.Name
import JobBinding.Scenario.Mode
import JobBinding.Workflow

/-!
# Actions and their validation

A workflow has an action for each scenario that asks something of the cluster, and a scenario has a
mode of validation under the same condition. So the actions of a workflow are those that are
accepted for validation, with the resources that the validation expects (`actions_validated`).
-/

namespace JobBinding

namespace Scenario

variable {s : Scenario} {capacity : Capacity}

lemma mode_of_request {request : Request} (h : s.request? capacity = some request) :
    s.mode capacity =
      .ok (if request.mpi then .distributed (.ofRequest request s.hosts capacity.vendor)
        else .single (.ofRequest request s.hosts capacity.vendor)) := by
  rw [mode, h]

lemma mode_of_request_eq_none (h : s.request? capacity = none) :
    s.mode capacity = .error (.infeasibleAction s.name) := by
  rw [mode, h]

end Scenario

namespace Workflow

variable (program : String) (capacity : Capacity)

lemma mem_actionsOf {a : Action} :
    a ∈ actionsOf program capacity ↔
      ∃ s request, s.request? capacity = some request ∧ Action.ofRequest program s request = a := by
  simp only [actionsOf, List.mem_filterMap, Option.map_eq_some_iff]
  constructor
  · rintro ⟨s, -, request, h⟩
    exact ⟨s, request, h⟩
  · rintro ⟨s, request, h⟩
    exact ⟨s, s.mem_all, request, h⟩

lemma names_actionsOf :
    (actionsOf program capacity).map (·.name) =
      (Scenario.all.filter fun s => (s.request? capacity).isSome).map Scenario.name := by
  rw [actionsOf]
  induction Scenario.all with
  | nil => rfl
  | cons s scenarios ih =>
    cases h : s.request? capacity with
    | none => simp [h, ih]
    | some request => simp [h, ih, Action.ofRequest]

lemma names_sublist :
    ((actionsOf program capacity).map (·.name)).Sublist (Scenario.all.map Scenario.name) := by
  rw [names_actionsOf]
  exact List.filter_sublist.map Scenario.name

lemma name_mem_of_request {s : Scenario} {request : Request}
    (h : s.request? capacity = some request) :
    s.name ∈ (actionsOf program capacity).map (·.name) :=
  List.mem_map.2 ⟨_, (mem_actionsOf program capacity).2 ⟨s, request, h, rfl⟩, rfl⟩

/-- An action has the resources and the launchers of the mode in which its scenario is
validated. -/
lemma mode_of_mem_actionsOf {a : Action} (h : a ∈ actionsOf program capacity) :
    ∃ s mode, Scenario.ofName a.name = .ok s ∧ s.mode capacity = .ok mode ∧
      mode.shape.processes = a.processes ∧ mode.shape.threads = a.threads ∧
      mode.shape.gpus = a.gpus ∧ (mode = .distributed mode.shape ↔ a.launchers = ["mpi"]) ∧
      (mode = .single mode.shape ↔ a.launchers = []) := by
  obtain ⟨s, request, hrequest, rfl⟩ := (mem_actionsOf program capacity).1 h
  refine ⟨s, _, s.ofName_name, Scenario.mode_of_request hrequest, ?_⟩
  cases hmpi : request.mpi with
  | false =>
    have hlaunchers : (Action.ofRequest program s request).launchers = [] := by
      rw [Action.ofRequest, hmpi]
      rfl
    rw [hlaunchers]
    exact ⟨rfl, rfl, rfl, ⟨nofun, nofun⟩, ⟨fun _ => rfl, fun _ => rfl⟩⟩
  | true =>
    have hlaunchers : (Action.ofRequest program s request).launchers = ["mpi"] := by
      rw [Action.ofRequest, hmpi]
      rfl
    rw [hlaunchers]
    exact ⟨rfl, rfl, rfl, ⟨fun _ => rfl, fun _ => rfl⟩, ⟨nofun, nofun⟩⟩

/-- What a workflow submits is what is accepted for validation: its actions have distinct names, in
the order of the scenarios, each of them is validated with the resources it asks for, by one
process or by all of them as it is launched, and every other scenario is refused. -/
theorem actions_validated (program cluster : String) (capacity : Capacity)
    (account setup : Option String) :
    ((ofCapacity program cluster capacity account setup).actions.map (·.name)).Nodup ∧
    ((ofCapacity program cluster capacity account setup).actions.map (·.name)).Sublist
      (Scenario.all.map Scenario.name) ∧
    (∀ a ∈ (ofCapacity program cluster capacity account setup).actions,
      ∃ s mode, Scenario.ofName a.name = .ok s ∧ s.mode capacity = .ok mode ∧
        mode.shape.processes = a.processes ∧ mode.shape.threads = a.threads ∧
        mode.shape.gpus = a.gpus ∧ (mode = .distributed mode.shape ↔ a.launchers = ["mpi"]) ∧
        (mode = .single mode.shape ↔ a.launchers = [])) ∧
    ∀ s : Scenario,
      s.name ∉ (ofCapacity program cluster capacity account setup).actions.map (·.name) →
        s.mode capacity = .error (.infeasibleAction s.name) := by
  have hsublist := names_sublist program capacity
  refine ⟨Scenario.nodup_names.sublist hsublist, hsublist, ?_, ?_⟩
  · intro a ha
    exact mode_of_mem_actionsOf program capacity ha
  · intro s hs
    apply Scenario.mode_of_request_eq_none
    cases hrequest : s.request? capacity with
    | none => rfl
    | some request => exact absurd (name_mem_of_request program capacity hrequest) hs

/-- With one core of each node, processes on two nodes are validated and threads are refused. -/
theorem modes_of_one_core :
    (∃ a ∈ actionsOf "bindcheck" ⟨1, 0, .none, false⟩, a.name = "mpi_multinode" ∧
      ∃ s mode, Scenario.ofName a.name = .ok s ∧ s.mode ⟨1, 0, .none, false⟩ = .ok mode ∧
        mode.shape.processes = a.processes) ∧
    "threads" ∉ (actionsOf "bindcheck" ⟨1, 0, .none, false⟩).map (·.name) ∧
      Scenario.threads.mode ⟨1, 0, .none, false⟩ = .error (.infeasibleAction "threads") := by
  have haction : Action.ofRequest "bindcheck" .mpiMultinode ⟨2, 1, 0, true⟩ ∈
      actionsOf "bindcheck" ⟨1, 0, .none, false⟩ := by decide
  have hname : "threads" ∉ (actionsOf "bindcheck" ⟨1, 0, .none, false⟩).map (·.name) := by decide
  obtain ⟨-, -, haccepted, hrefused⟩ :=
    actions_validated "bindcheck" "small" ⟨1, 0, .none, false⟩ none none
  obtain ⟨s, mode, hs, hmode, hprocesses, -⟩ := haccepted _ haction
  exact ⟨⟨_, haction, rfl, s, mode, hs, hmode, hprocesses⟩, hname, hrefused .threads hname⟩

end Workflow

end JobBinding
