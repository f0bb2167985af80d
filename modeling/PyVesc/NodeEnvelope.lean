import PyVesc.CanCommands
import PyVesc.PyDict

/-!
# The envelope of a node

`can/node.py`: the methods of a node that send it limits, and the record of what has been sent. The
node acknowledges nothing, so a method records its values as soon as the bus has taken the frame. An
encoder that refuses a value and a bus that cannot send raise before.
-/

namespace PyVesc

structure VescCanNode where
  controllerId : ℕ
  real : controllerId ≤ 0xFE
  /-- The values and the time of what has been sent, by its name. -/
  appliedConf : Dict String ((PyVal × PyVal) × ℚ)

def VescCanNode.init (controllerId : ℤ) : Py VescCanNode :=
  if h : 0 ≤ controllerId ∧ controllerId ≤ 0xFE then .ok ⟨controllerId.toNat, by omega, []⟩
  else .error (.valueError "controller_id must be 0..254 for a real node")

variable {ε : Type}

/-- A method of a node. It raises errors of the codec and those of the bus, which are of the type
`ε`. -/
abbrev NodeM (ε : Type) := ExceptT (PyError ⊕ ε) (StateM VescCanNode)

namespace NodeM

/-- The result of a method and the node behind it. -/
def exec {α : Type} (m : NodeM ε α) (node : VescCanNode) :
    Except (PyError ⊕ ε) α × VescCanNode := StateT.run (ExceptT.run m) node

theorem exec_bind {α β : Type} (m : NodeM ε α) (f : α → NodeM ε β) (node : VescCanNode) :
    (m >>= f).exec node =
      match m.exec node with
      | (.ok a, node) => (f a).exec node
      | (.error e, node) => (.error e, node) := by
  rcases hm : m.exec node with ⟨result, node'⟩
  have hrun : StateT.run (ExceptT.run m) node = pure (result, node') := hm
  rw [exec, ExceptT.run_bind, StateT.run_bind, hrun]
  cases result <;> rfl

def encoded (frame : Py VescFrame) : NodeM ε VescFrame :=
  match frame with
  | .ok frame => pure frame
  | .error e => throw (.inl e)

def sent (result : Except ε Unit) : NodeM ε Unit :=
  match result with
  | .ok _ => pure ()
  | .error e => throw (.inr e)

end NodeM

def recordConf (name : String) (values : PyVal × PyVal) (store : Bool) (now : ℚ) : NodeM ε Unit :=
  modify fun self =>
    let key := name ++ (if store then "_stored" else "")
    { self with appliedConf := Dict.set self.appliedConf key (values, now) }

/-- The methods that send a pair of limits. `send` is what the bus does with the frame, and `now`
the reading of the clock. -/
def conf (encode : ℤ → PyVal → PyVal → Bool → Py VescFrame) (name : String) (first second : PyVal)
    (store : Bool) (send : VescFrame → Except ε Unit) (now : ℚ) : NodeM ε Unit := do
  let self ← get
  let frame ← NodeM.encoded (encode self.controllerId first second store)
  NodeM.sent (send frame)
  recordConf name (first, second) store now

variable (fmt : PyFormat)

def confCurrentLimits (minA maxA : PyVal) (store : Bool) (send : VescFrame → Except ε Unit)
    (now : ℚ) : NodeM ε Unit :=
  conf (encodeConfCurrentLimits fmt) "current_limits" minA maxA store send now

def confCurrentLimitsIn (minA maxA : PyVal) (store : Bool) (send : VescFrame → Except ε Unit)
    (now : ℚ) : NodeM ε Unit :=
  conf (encodeConfCurrentLimitsIn fmt) "current_limits_in" minA maxA store send now

def confBatteryCut (startV endV : PyVal) (store : Bool) (send : VescFrame → Except ε Unit)
    (now : ℚ) : NodeM ε Unit :=
  conf (encodeConfBatteryCut fmt) "battery_cut" startV endV store send now

def confFocErpms (focOpenloopRpm focSlErpm : PyVal) (store : Bool)
    (send : VescFrame → Except ε Unit) (now : ℚ) : NodeM ε Unit :=
  conf (encodeConfFocErpms fmt) "foc_erpms" focOpenloopRpm focSlErpm store send now

/-! ### Calls -/

inductive ConfSetting where
  | currentLimits | currentLimitsIn | batteryCut | focErpms
  deriving DecidableEq, Repr

namespace ConfSetting

def name : ConfSetting → String
  | currentLimits => "current_limits"
  | currentLimitsIn => "current_limits_in"
  | batteryCut => "battery_cut"
  | focErpms => "foc_erpms"

def encode : ConfSetting → ℤ → PyVal → PyVal → Bool → Py VescFrame
  | currentLimits => encodeConfCurrentLimits fmt
  | currentLimitsIn => encodeConfCurrentLimitsIn fmt
  | batteryCut => encodeConfBatteryCut fmt
  | focErpms => encodeConfFocErpms fmt

/-- The name under which a setting is recorded. -/
def key (setting : ConfSetting) (stored : Bool) : String :=
  setting.name ++ (if stored then "_stored" else "")

theorem key_inj {setting setting' : ConfSetting} {stored stored' : Bool} :
    setting.key stored = setting'.key stored' ↔ setting = setting' ∧ stored = stored' := by
  cases setting <;> cases stored <;> cases setting' <;> cases stored' <;> decide

end ConfSetting

structure ConfCall (ε : Type) where
  setting : ConfSetting
  first : PyVal
  second : PyVal
  store : Bool
  send : VescFrame → Except ε Unit
  now : ℚ

namespace ConfCall

def perform (call : ConfCall ε) : NodeM ε Unit :=
  match call.setting with
  | .currentLimits => confCurrentLimits fmt call.first call.second call.store call.send call.now
  | .currentLimitsIn => confCurrentLimitsIn fmt call.first call.second call.store call.send call.now
  | .batteryCut => confBatteryCut fmt call.first call.second call.store call.send call.now
  | .focErpms => confFocErpms fmt call.first call.second call.store call.send call.now

/-- The result of a call and the node behind it. -/
def run (call : ConfCall ε) (node : VescCanNode) : Except (PyError ⊕ ε) Unit × VescCanNode :=
  (call.perform fmt).exec node

def entry (call : ConfCall ε) : (PyVal × PyVal) × ℚ := ((call.first, call.second), call.now)

/-- The frame of the call is encoded for the node `c`, and the bus sends it. -/
def isSent (c : ℕ) (call : ConfCall ε) : Bool :=
  match call.setting.encode fmt c call.first call.second call.store with
  | .ok frame => (call.send frame).isOk
  | .error _ => false

def recorded (call : ConfCall ε) (node : VescCanNode) : VescCanNode :=
  { node with
    appliedConf := Dict.set node.appliedConf (call.setting.key call.store) call.entry }

variable {fmt}

theorem perform_eq (call : ConfCall ε) : call.perform fmt =
    conf (call.setting.encode fmt) call.setting.name call.first call.second call.store call.send
      call.now := by
  obtain ⟨setting, first, second, store, send, now⟩ := call
  cases setting <;> rfl

variable (fmt) in
/-- A call records its values if its frame has been sent, and else it raises and changes nothing. -/
theorem run_cases (call : ConfCall ε) (node : VescCanNode) :
    (call.isSent fmt node.controllerId = true ∧ call.run fmt node = (.ok (), call.recorded node)) ∨
    (call.isSent fmt node.controllerId = false ∧ ∃ e, call.run fmt node = (.error e, node)) := by
  have hget : NodeM.exec (get : NodeM ε VescCanNode) node = (.ok node, node) := rfl
  rw [run, perform_eq, conf, NodeM.exec_bind, hget, isSent]
  dsimp only
  rw [NodeM.exec_bind]
  cases call.setting.encode fmt node.controllerId call.first call.second call.store with
  | error e => exact Or.inr ⟨rfl, _, rfl⟩
  | ok frame =>
    have hencoded : NodeM.exec (NodeM.encoded (.ok frame) : NodeM ε VescFrame) node =
        (.ok frame, node) := rfl
    rw [hencoded]
    dsimp only
    rw [NodeM.exec_bind]
    cases call.send frame with
    | error e => exact Or.inr ⟨rfl, _, rfl⟩
    | ok _ => exact Or.inl ⟨rfl, rfl⟩

theorem lookup_recorded (call : ConfCall ε) (node : VescCanNode) (setting : ConfSetting)
    (stored : Bool) : (call.recorded node).appliedConf.lookup (setting.key stored) =
      if setting = call.setting ∧ stored = call.store then some call.entry
      else node.appliedConf.lookup (setting.key stored) := by
  rw [recorded, Dict.lookup_set]
  simp only [ConfSetting.key_inj]

end ConfCall

/-! ### Sequences of calls -/

def afterCalls (node : VescCanNode) (calls : List (ConfCall ε)) : VescCanNode :=
  calls.foldl (fun node call => (call.run fmt node).2) node

theorem afterCalls_concat (node : VescCanNode) (calls : List (ConfCall ε)) (call : ConfCall ε) :
    afterCalls fmt node (calls ++ [call]) = (call.run fmt (afterCalls fmt node calls)).2 :=
  List.foldl_concat ..

/-- The last call for this pair that has been sent. -/
def lastSent (c : ℕ) (setting : ConfSetting) (stored : Bool) (calls : List (ConfCall ε)) :
    Option (ConfCall ε) :=
  (calls.filter fun call =>
    setting = call.setting ∧ stored = call.store ∧ call.isSent fmt c = true).getLast?

theorem lastSent_concat (c : ℕ) (setting : ConfSetting) (stored : Bool) (calls : List (ConfCall ε))
    (call : ConfCall ε) : lastSent fmt c setting stored (calls ++ [call]) =
      if setting = call.setting ∧ stored = call.store ∧ call.isSent fmt c = true then some call
      else lastSent fmt c setting stored calls := by
  rw [lastSent, List.filter_append, List.filter_singleton]
  split_ifs with h
  · rw [decide_eq_true h]
    exact List.getLast?_concat
  · rw [decide_eq_false h]
    exact congrArg List.getLast? (List.append_nil _)

/-- The record has what was sent last of every pair, and nothing else. -/
structure Records (c : ℕ) (calls : List (ConfCall ε)) (node : VescCanNode) : Prop where
  controllerId : node.controllerId = c
  entries : ∀ setting stored, node.appliedConf.lookup (setting.key stored) =
    (lastSent fmt c setting stored calls).map ConfCall.entry
  keys : ∀ key ∈ Dict.keys node.appliedConf, ∃ (setting : ConfSetting) (stored : Bool),
    key = setting.key stored

variable {fmt}

theorem Records.run {c : ℕ} {calls : List (ConfCall ε)} {node : VescCanNode}
    (h : Records fmt c calls node) (call : ConfCall ε) :
    Records fmt c (calls ++ [call]) (call.run fmt node).2 := by
  rcases call.run_cases fmt node with ⟨hsent, hrun⟩ | ⟨hunsent, e, hrun⟩
  · rw [h.controllerId] at hsent
    rw [hrun]
    refine ⟨h.controllerId, fun setting stored => ?_, fun key hkey => ?_⟩
    · rw [ConfCall.lookup_recorded, lastSent_concat, hsent]
      simp only [and_true]
      split_ifs
      · rfl
      · exact h.entries setting stored
    · rcases (Dict.mem_keys_set ..).mp hkey with rfl | hkey
      · exact ⟨_, _, rfl⟩
      · exact h.keys key hkey
  · rw [h.controllerId] at hunsent
    rw [hrun]
    refine ⟨h.controllerId, fun setting stored => ?_, h.keys⟩
    rw [lastSent_concat, hunsent, if_neg fun h => Bool.noConfusion h.2.2]
    exact h.entries setting stored

theorem records_afterCalls {c : ℕ} {node : VescCanNode}
    (h : Records fmt c ([] : List (ConfCall ε)) node) (calls : List (ConfCall ε)) :
    Records fmt c calls (afterCalls fmt node calls) := by
  induction calls using List.reverseRecOn with
  | nil => exact h
  | append_singleton calls call ih =>
    rw [afterCalls_concat]
    exact ih.run call

variable (fmt) in
theorem VescCanNode.records_init {controllerId : ℤ} {node : VescCanNode}
    (h : VescCanNode.init controllerId = .ok node) :
    Records fmt node.controllerId ([] : List (ConfCall ε)) node := by
  rw [init] at h
  split_ifs at h
  cases h
  exact ⟨rfl, fun _ _ => rfl, fun key hkey => absurd hkey List.not_mem_nil⟩

/-- After any calls of a new node its record has, for every setting, stored or not, the values and
the time of the last call that was sent, and nothing else. The next call raises if it is not sent,
and then it changes nothing. If it is sent, it leaves the entries of the other pairs as they are. -/
theorem record_of_calls (fmt : PyFormat) (controllerId : ℤ) (new : VescCanNode)
    (hnew : VescCanNode.init controllerId = .ok new) (calls : List (ConfCall ε)) :
    (∀ setting stored, (afterCalls fmt new calls).appliedConf.lookup (setting.key stored) =
      (lastSent fmt new.controllerId setting stored calls).map ConfCall.entry) ∧
    (∀ key ∈ Dict.keys (afterCalls fmt new calls).appliedConf,
      ∃ (setting : ConfSetting) (stored : Bool), key = setting.key stored) ∧
    ∀ (call : ConfCall ε) (result : Except (PyError ⊕ ε) Unit) (node : VescCanNode),
      call.run fmt (afterCalls fmt new calls) = (result, node) →
        (result.isOk = call.isSent fmt new.controllerId) ∧
        (∀ e, result = .error e → node = afterCalls fmt new calls) ∧
        ∀ setting stored, ¬ (setting = call.setting ∧ stored = call.store) →
          node.appliedConf.lookup (setting.key stored) =
            (afterCalls fmt new calls).appliedConf.lookup (setting.key stored) := by
  have hrecords := records_afterCalls (VescCanNode.records_init fmt hnew) calls
  refine ⟨hrecords.entries, hrecords.keys, fun call result node hcall => ?_⟩
  have hcases := call.run_cases fmt (afterCalls fmt new calls)
  rw [hrecords.controllerId, hcall] at hcases
  rcases hcases with ⟨hsent, hrun⟩ | ⟨hunsent, e, hrun⟩
  · cases hrun
    refine ⟨hsent.symm, nofun, fun setting stored hother => ?_⟩
    rw [ConfCall.lookup_recorded, if_neg hother]
  · cases hrun
    exact ⟨hunsent.symm, fun _ _ => rfl, fun _ _ _ => rfl⟩

/-- Limits that are sent, others that overflow, and a stored cut that the bus cannot send. -/
def limitCalls : List (ConfCall Unit) :=
  [⟨.currentLimits, .int (-10), .int 20, false, fun _ => .ok (), 1⟩,
    ⟨.currentLimits, .int 0, .int 3000000, false, fun _ => .ok (), 2⟩,
    ⟨.batteryCut, .int 40, .int 36, true, fun _ => .error (), 3⟩]

theorem record_of_limitCalls : ∃ new, VescCanNode.init 7 = .ok new ∧
    ∃ node, afterCalls ⟨fun _ => "", fun _ => ""⟩ new limitCalls = node ∧
      node.appliedConf.lookup "current_limits" = some ((.int (-10), .int 20), 1) ∧
      node.appliedConf.lookup "battery_cut_stored" = none := by
  have hlimits : (lastSent ⟨fun _ => "", fun _ => ""⟩ 7 .currentLimits false limitCalls).map
      ConfCall.entry = some ((.int (-10), .int 20), 1) := by decide +kernel
  have hcut : (lastSent ⟨fun _ => "", fun _ => ""⟩ 7 .batteryCut true limitCalls).map
      ConfCall.entry = none := by decide +kernel
  obtain ⟨hentries, _⟩ :=
    record_of_calls ⟨fun _ => "", fun _ => ""⟩ 7 ⟨7, by decide, []⟩ rfl limitCalls
  exact ⟨_, rfl, _, rfl, (hentries .currentLimits false).trans hlimits,
    (hentries .batteryCut true).trans hcut⟩

end PyVesc
