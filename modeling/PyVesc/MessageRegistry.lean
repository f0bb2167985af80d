import PyVesc.MessageBase
import PyVesc.PyDict
import PyVesc.Transition

/-!
# Declaring message classes

`VESCMessage.__init__` of `protocol/base.py`, which runs for every class statement: the checks on
the declaration and the point at which the class is recorded under its id. A class is the number of
its class statement. The sum of the field sizes, which nothing reads, is left out; that `calcsize`
refuses a format it does not know is not.

A declaration that is rejected leaves no trace exactly if it is rejected before its fields are
looked at.
-/

namespace PyVesc

/-- A format as it is declared: one struct item, `s`, `p`, or one that `struct` does not know. -/
inductive DeclaredFormat where
  | s
  | p
  | item (f : StructFormat.Format)
  | unknown

structure DeclaredField where
  name : String
  format : DeclaredFormat
  scalar : Option ℚ

structure Declaration where
  id : Option ℕ
  /-- One of the bases is a message class. -/
  inherits : Bool
  sendFields : Option (List DeclaredField)
  recvFields : Option (List DeclaredField)

/-- A format as it is in the tables of the class, where `s` has become `%us`. -/
inductive TableFormat where
  | s
  | percentUs
  | p
  | item (f : StructFormat.Format)
  | unknown

namespace TableFormat

def isS : TableFormat → Bool
  | s => true
  | _ => false

def isPercentUs : TableFormat → Bool
  | percentUs => true
  | _ => false

def isP : TableFormat → Bool
  | p => true
  | _ => false

/-- `struct.calcsize`, as far as it raises. -/
def calcsize : TableFormat → Py Unit
  | unknown => .error .structError
  | _ => .ok ()

end TableFormat

def DeclaredFormat.inTable : DeclaredFormat → TableFormat
  | s => .percentUs
  | p => .p
  | item f => .item f
  | unknown => .unknown

def fieldFormats (fields : List DeclaredField) : List TableFormat :=
  fields.map fun field => field.format.inTable

def refuseP (formats : List TableFormat) : Py Unit :=
  if formats.any TableFormat.isP then
    .error (.typeError "Field with format character 'p' detected. For string field use 's'.")
  else .ok ()

/-- What is checked of the fields to send. Their sizes are not taken: the loop goes over the receive
formats, which are still empty. -/
def checkSendFields (fields : List DeclaredField) : Py Unit :=
  let formats := fieldFormats fields
  let stringFieldCount :=
    formats.countP TableFormat.isS + formats.countP TableFormat.isPercentUs
  if stringFieldCount > 1 then .error (.typeError "Max number of string fields is 1.")
  else refuseP formats

/-- What is checked of the fields to receive. -/
def checkRecvFields (fields : List DeclaredField) : Py Unit := do
  let formats := fieldFormats fields
  formats.forM fun fmt => if fmt.isPercentUs then .ok () else fmt.calcsize
  let stringFieldCount := formats.countP TableFormat.isS
  if stringFieldCount > 1 then .error (.typeError "Max number of string fields is 1.")
  else refuseP formats

/-- The part of `__init__` behind the point at which the class is recorded. -/
def Declaration.checkFields (d : Declaration) : Py Unit :=
  match d.sendFields, d.recvFields with
  | none, none => .error (.attributeError "No fields defined for ")
  | send, recv => do
    send.elim (.ok ()) checkSendFields
    recv.elim (.ok ()) checkRecvFields

/-- The classes so far: the registry, the number of class statements and those that completed. -/
structure Classes where
  registry : Dict ℕ ℕ
  statements : ℕ
  completed : List ℕ
  deriving DecidableEq, Repr

namespace Classes

def initial : Classes := ⟨[], 0, []⟩

/-- `__init__` for the next class: the registry afterwards and the outcome. -/
def declare (s : Classes) (d : Declaration) : Dict ℕ ℕ × Py Unit :=
  match d.id with
  | none => (s.registry, .error .keyError)
  | some msgId =>
    if d.inherits then (s.registry, .error (.typeError "VESC messages cannot be inherited."))
    else
      match s.registry.lookup msgId with
      | some cls => (s.registry, .error (.typeError s!"ID conflict with {cls}"))
      | none => (Dict.set s.registry msgId s.statements, d.checkFields)

def step (s : Classes) (d : Declaration) : Option Classes :=
  let (registry, outcome) := s.declare d
  some
    { registry
      statements := s.statements + 1
      completed :=
        match outcome with
        | .ok () => s.completed ++ [s.statements]
        | .error _ => s.completed }

end Classes

/-! ### What the checks accept -/

namespace Declaration

/-- The fields pass the checks: there are some, none is a `p`, at most one to send is a string, and
`struct` knows the formats to receive. -/
structure FieldsAcceptable (d : Declaration) : Prop where
  declared : d.sendFields ≠ none ∨ d.recvFields ≠ none
  sendStrings : ∀ fields ∈ d.sendFields,
    (fieldFormats fields).countP TableFormat.isPercentUs ≤ 1
  sendP : ∀ fields ∈ d.sendFields, ∀ f ∈ fields, f.format ≠ .p
  recvP : ∀ fields ∈ d.recvFields, ∀ f ∈ fields, f.format ≠ .p
  recvKnown : ∀ fields ∈ d.recvFields, ∀ f ∈ fields, f.format ≠ .unknown

end Declaration

theorem countP_isS_fieldFormats (fields : List DeclaredField) :
    (fieldFormats fields).countP TableFormat.isS = 0 := by
  rw [List.countP_eq_zero]
  intro fmt hfmt
  obtain ⟨field, _, rfl⟩ := List.mem_map.mp hfmt
  cases field.format <;> exact Bool.false_ne_true

theorem refuseP_ok_iff (fields : List DeclaredField) :
    refuseP (fieldFormats fields) = .ok () ↔ ∀ f ∈ fields, f.format ≠ .p := by
  have hany : (fieldFormats fields).any TableFormat.isP = false ↔
      ∀ f ∈ fields, f.format ≠ .p := by
    rw [List.any_eq_false, fieldFormats, List.forall_mem_map]
    apply forall₂_congr
    intro f _
    cases f.format <;> simp [DeclaredFormat.inTable, TableFormat.isP]
  rw [← hany, refuseP]
  split_ifs with h <;> simp [h]

theorem checkSendFields_ok_iff (fields : List DeclaredField) :
    checkSendFields fields = .ok () ↔
      (fieldFormats fields).countP TableFormat.isPercentUs ≤ 1 ∧ ∀ f ∈ fields, f.format ≠ .p := by
  rw [checkSendFields, countP_isS_fieldFormats, Nat.zero_add, ← refuseP_ok_iff]
  by_cases hcount : (fieldFormats fields).countP TableFormat.isPercentUs ≤ 1
  · rw [if_neg (by omega)]
    exact (and_iff_right hcount).symm
  · rw [if_pos (by omega)]
    refine iff_of_false ?_ (fun h => hcount h.1)
    intro h
    cases h

theorem forM_ok_iff {α : Type} {f : α → Py Unit} {l : List α} :
    l.forM f = .ok () ↔ ∀ a ∈ l, f a = .ok () := by
  induction l with
  | nil => exact iff_of_true rfl (fun a ha => by cases ha)
  | cons a l ih =>
      rw [List.forall_mem_cons, ← ih]
      change (f a >>= fun _ => l.forM f) = .ok () ↔ _
      cases f a with
      | error e => exact iff_of_false (fun h => by cases h) (fun h => by cases h.1)
      | ok u => exact (and_iff_right rfl).symm

theorem calcsize_ok_iff (fields : List DeclaredField) :
    ((fieldFormats fields).forM fun fmt =>
        if fmt.isPercentUs then .ok () else fmt.calcsize) = .ok () ↔
      ∀ f ∈ fields, f.format ≠ .unknown := by
  rw [forM_ok_iff, fieldFormats, List.forall_mem_map]
  apply forall₂_congr
  intro f _
  cases f.format <;> simp [DeclaredFormat.inTable, TableFormat.isPercentUs, TableFormat.calcsize]

theorem checkRecvFields_ok_iff (fields : List DeclaredField) :
    checkRecvFields fields = .ok () ↔
      (∀ f ∈ fields, f.format ≠ .p) ∧ ∀ f ∈ fields, f.format ≠ .unknown := by
  rw [← refuseP_ok_iff, ← calcsize_ok_iff, checkRecvFields]
  constructor
  · intro h
    obtain ⟨u, hsize, h⟩ := bind_eq_ok h
    rw [countP_isS_fieldFormats, if_neg (by decide)] at h
    exact ⟨h, hsize⟩
  · rintro ⟨hp, hsize⟩
    rw [hsize, ok_bind, countP_isS_fieldFormats, if_neg (by decide)]
    exact hp

theorem elim_ok_iff {α : Type} {f : α → Py Unit} (o : Option α) :
    o.elim (.ok ()) f = .ok () ↔ ∀ a ∈ o, f a = .ok () := by
  cases o with
  | none => exact iff_of_true rfl (fun a ha => by cases ha)
  | some a => simp

namespace Declaration

theorem checkFields_of_declared {d : Declaration}
    (h : d.sendFields ≠ none ∨ d.recvFields ≠ none) : d.checkFields = (do
      d.sendFields.elim (.ok ()) checkSendFields
      d.recvFields.elim (.ok ()) checkRecvFields) := by
  rw [checkFields]
  cases hsend : d.sendFields with
  | some fields => rfl
  | none =>
      cases hrecv : d.recvFields with
      | some fields => rfl
      | none => exact absurd h (by simp [hsend, hrecv])

theorem checkFields_ok_iff (d : Declaration) :
    d.checkFields = .ok () ↔ d.FieldsAcceptable := by
  by_cases hdeclared : d.sendFields ≠ none ∨ d.recvFields ≠ none
  · have hsend := elim_ok_iff (f := checkSendFields) d.sendFields
    have hrecv := elim_ok_iff (f := checkRecvFields) d.recvFields
    simp only [checkSendFields_ok_iff, checkRecvFields_ok_iff] at hsend hrecv
    rw [checkFields_of_declared hdeclared]
    constructor
    · intro h
      obtain ⟨u, hs, hr⟩ := bind_eq_ok h
      have hsend := hsend.mp hs
      have hrecv := hrecv.mp hr
      exact ⟨hdeclared, fun l hl => (hsend l hl).1, fun l hl => (hsend l hl).2,
        fun l hl => (hrecv l hl).1, fun l hl => (hrecv l hl).2⟩
    · rintro ⟨_, hstrings, hsendP, hrecvP, hknown⟩
      rw [hsend.mpr fun l hl => ⟨hstrings l hl, hsendP l hl⟩, ok_bind]
      exact hrecv.mpr fun l hl => ⟨hrecvP l hl, hknown l hl⟩
  · rw [not_or, not_not, not_not] at hdeclared
    refine iff_of_false ?_ (fun h => h.declared.elim (· hdeclared.1) (· hdeclared.2))
    rw [checkFields, hdeclared.1, hdeclared.2]
    intro h
    cases h

end Declaration

/-! ### Rejected declarations -/

namespace Classes

/-- The declaration is rejected before its fields are looked at, or they are acceptable. -/
def Clean (s : Classes) (d : Declaration) : Prop :=
  d.id = none ∨ d.inherits = true ∨ (∃ i ∈ d.id, i ∈ s.registry.keys) ∨ d.FieldsAcceptable

/-- If the declaration raises, the registry is what it was. -/
def LeavesNoTrace (s : Classes) (d : Declaration) : Prop :=
  ∀ e, (s.declare d).2 = .error e → (s.declare d).1 = s.registry

/-- Every id in the registry maps to a class whose declaration completed. -/
def AllCompleted (s : Classes) : Prop :=
  ∀ i cls, s.registry.lookup i = some cls → cls ∈ s.completed

/-- A correct declaration with an id that no completed class has succeeds. -/
def AcceptsCorrect (s : Classes) : Prop :=
  ∀ (d : Declaration) (i : ℕ), d.id = some i → d.inherits = false → d.FieldsAcceptable →
    (∀ cls, s.registry.lookup i = some cls → cls ∉ s.completed) → (s.declare d).2 = .ok ()

/-- What is promised of a sequence of declarations. -/
structure Traceless (s : Classes) (ds : List Declaration) : Prop where
  rejected : Transition.Meets step LeavesNoTrace s ds
  completed : ∀ t, Transition.run step s ds = some t → t.AllCompleted
  accepts : ∀ t, Transition.run step s ds = some t → t.AcceptsCorrect

theorem declare_of_new {s : Classes} {d : Declaration} {i : ℕ} (hid : d.id = some i)
    (hbase : d.inherits = false) (hnew : i ∉ s.registry.keys) :
    s.declare d = (Dict.set s.registry i s.statements, d.checkFields) := by
  simp only [declare, hid, hbase, Bool.false_eq_true, if_false, Dict.lookup_eq_none.mpr hnew]

/-- What a declaration can do: be rejected at once, or be recorded and have its fields checked. -/
theorem declare_cases (s : Classes) (d : Declaration) :
    ((d.id = none ∨ d.inherits = true ∨ ∃ i ∈ d.id, i ∈ s.registry.keys) ∧
      ∃ e, s.declare d = (s.registry, .error e)) ∨
    ∃ i, d.id = some i ∧ d.inherits = false ∧ i ∉ s.registry.keys ∧
      s.declare d = (Dict.set s.registry i s.statements, d.checkFields) := by
  cases hid : d.id with
  | none => exact Or.inl ⟨Or.inl rfl, _, by rw [declare, hid]⟩
  | some i =>
      cases hbase : d.inherits with
      | true =>
          refine Or.inl ⟨Or.inr (Or.inl rfl),
            .typeError "VESC messages cannot be inherited.", ?_⟩
          simp only [declare, hid, hbase, if_true]
      | false =>
          by_cases hold : i ∈ s.registry.keys
          · refine Or.inl ⟨Or.inr (Or.inr ⟨i, rfl, hold⟩), ?_⟩
            cases hlookup : s.registry.lookup i with
            | none => exact absurd hold (Dict.lookup_eq_none.mp hlookup)
            | some cls =>
                refine ⟨.typeError s!"ID conflict with {cls}", ?_⟩
                simp only [declare, hid, hbase, hlookup, Bool.false_eq_true, if_false]
          · exact Or.inr ⟨i, rfl, rfl, hold, declare_of_new hid hbase hold⟩

/-- Of a new id only the fields matter. -/
theorem clean_iff_of_new {s : Classes} {d : Declaration} {i : ℕ} (hid : d.id = some i)
    (hbase : d.inherits = false) (hnew : i ∉ s.registry.keys) :
    s.Clean d ↔ d.FieldsAcceptable := by
  constructor
  · rintro (h | h | ⟨j, hj, hold⟩ | h)
    · rw [hid] at h
      cases h
    · rw [hbase] at h
      cases h
    · rw [hid] at hj
      cases hj
      exact absurd hold hnew
    · exact h
  · exact fun h => Or.inr (Or.inr (Or.inr h))

theorem leavesNoTrace_iff (s : Classes) (d : Declaration) : LeavesNoTrace s d ↔ s.Clean d := by
  obtain ⟨hearly, e, hdeclare⟩ | ⟨i, hid, hbase, hnew, hdeclare⟩ := declare_cases s d
  · rw [LeavesNoTrace, hdeclare]
    refine iff_of_true (fun _ _ => rfl) ?_
    obtain h | h | h := hearly
    · exact Or.inl h
    · exact Or.inr (Or.inl h)
    · exact Or.inr (Or.inr (Or.inl h))
  · have hkey : i ∈ (Dict.set s.registry i s.statements).keys :=
      Dict.mem_keys_set.mpr (Or.inl rfl)
    rw [clean_iff_of_new hid hbase hnew, ← d.checkFields_ok_iff, LeavesNoTrace, hdeclare]
    cases hcheck : d.checkFields with
    | ok u => exact iff_of_true (fun e he => by cases he) rfl
    | error e =>
        refine iff_of_false (fun h => ?_) (fun h => by cases h)
        have hsame : Dict.set s.registry i s.statements = s.registry := h e rfl
        rw [hsame] at hkey
        exact hnew hkey

theorem allCompleted_step {s t : Classes} {d : Declaration} (hs : s.AllCompleted)
    (hclean : s.Clean d) (hstep : s.step d = some t) : t.AllCompleted := by
  intro j cls hj
  obtain ⟨_, e, hdeclare⟩ | ⟨i, hid, hbase, hnew, hdeclare⟩ := declare_cases s d
  · simp only [step, hdeclare] at hstep
    cases hstep
    exact hs j cls hj
  · have hfields := (clean_iff_of_new hid hbase hnew).mp hclean
    simp only [step, hdeclare, d.checkFields_ok_iff.mpr hfields] at hstep
    cases hstep
    change (Dict.set s.registry i s.statements).lookup j = some cls at hj
    rw [Dict.lookup_set] at hj
    rw [List.mem_append, List.mem_singleton]
    split_ifs at hj with hij
    · cases hj
      exact Or.inr rfl
    · exact Or.inl (hs j cls hj)

theorem AllCompleted.acceptsCorrect {s : Classes} (hs : s.AllCompleted) : s.AcceptsCorrect := by
  intro d i hid hbase hfields hfree
  have hnew : i ∉ s.registry.keys := by
    apply Dict.lookup_eq_none.mp
    cases hlookup : s.registry.lookup i with
    | none => rfl
    | some cls => exact absurd (hs i cls hlookup) (hfree cls hlookup)
  rw [declare_of_new hid hbase hnew]
  exact d.checkFields_ok_iff.mpr hfields

theorem allCompleted_initial : initial.AllCompleted := by
  intro i cls h
  cases h

/-- A sequence of declarations leaves no trace of the rejected ones just if each of them is rejected
for its id or its bases. -/
theorem traceless_iff (ds : List Declaration) :
    initial.Traceless ds ↔ Transition.Meets step Clean initial ds := by
  constructor
  · intro h
    refine Transition.meets_of_invariant (fun _ => True) (fun _ _ _ _ _ _ => trivial) ?_ ds initial
      trivial h.rejected
    exact fun s d _ hd => (leavesNoTrace_iff s d).mp hd
  · intro h
    have hall : ∀ t, Transition.run step initial ds = some t → t.AllCompleted := by
      intro t ht
      exact Transition.run_invariant (fun s d u hs hd hu => allCompleted_step hs hd hu) ds initial t
        allCompleted_initial h ht
    refine ⟨?_, hall, fun t ht => (hall t ht).acceptsCorrect⟩
    exact Transition.meets_of_invariant (fun _ => True) (fun _ _ _ _ _ _ => trivial)
      (fun s d _ hd => (leavesNoTrace_iff s d).mpr hd) ds initial trivial h

/-- A class without fields is rejected and holds its id; the correct class with it is refused. -/
theorem traceless_fails :
    initial.declare ⟨some 0xE8, false, none, none⟩ =
        ([(0xE8, 0)], .error (.attributeError "No fields defined for ")) ∧
      Transition.run step initial [⟨some 0xE8, false, none, none⟩] = some ⟨[(0xE8, 0)], 1, []⟩ ∧
      (Classes.declare ⟨[(0xE8, 0)], 1, []⟩
        ⟨some 0xE8, false, some [⟨"f1", .item (.int .B), none⟩], none⟩).2 =
          .error (.typeError "ID conflict with 0") ∧
      ¬ initial.Traceless [⟨some 0xE8, false, none, none⟩] := by
  refine ⟨rfl, rfl, rfl, fun h => ?_⟩
  have hcompleted := h.completed _ rfl 0xE8 0 rfl
  cases hcompleted

end Classes

end PyVesc
