import RecordStore.Engine.Operate
import RecordStore.Json.Basic

/-!
# Policies as JSON

A policy is a structure whose fields may each be left out; a field that is left
out has its default. Choices are sent by name. The choices about the generation
carry the generation that is expected, and the lifetime is an integer. Every way
to get the policy of a request wrong is one and the same error.
-/

namespace RecordStore

/-! ### Names of choices -/

/-- The actions by name. -/
def RecordExistsAction.table : List (String × RecordExistsAction) :=
  [("create_or_update", .createOrUpdate), ("create", .create), ("update", .update),
    ("replace", .replace), ("create_or_replace", .createOrReplace)]

/-- The key policies by name. -/
def KeyPolicy.table : List (String × KeyPolicy) :=
  [("digest", .digest), ("send", .send)]

/-- The order policies by name. -/
def MapOrder.table : List (String × MapOrder) :=
  [("unordered", .unordered), ("key_ordered", .keyOrdered),
    ("key_value_ordered", .keyValueOrdered)]

/-- The write modes by name. -/
def MapWriteMode.table : List (String × MapWriteMode) :=
  [("update", .update), ("update_only", .updateOnly), ("create_only", .createOnly)]

/-- The policies for missing bins by name. -/
def MissingBinPolicy.table : List (String × MissingBinPolicy) :=
  [("empty", .empty), ("incompatible", .incompatible)]

/-- A choice from a table of names, or its default if it is left out. -/
def Json.chosen? {α : Type} (table : List (String × α)) (default : α) : Option Json → Option α
  | none => some default
  | some j => do table.lookup (← j.choice?)

/-- A choice by the name that a table gives it. -/
def Json.ofChoice {α : Type} [DecidableEq α] (table : List (String × α)) (a : α) : Json :=
  .string ((table.find? (·.2 = a)).elim "" (·.1))

/-- A truth value, or false if it is left out. -/
def Json.flag? : Option Json → Option Bool
  | none => some false
  | some j => j.toBool?

/-! ### Write policies -/

/-- The expectation that JSON stands for. -/
def GenerationPolicy.ofJson? : Json → Option GenerationPolicy
  | .object ⟨[("eq", n)]⟩ => n.toUInt64?.map .equal
  | .object ⟨[("gt", n)]⟩ => n.toUInt64?.map .greater
  | j => do if (← j.choice?) = "ignore" then some .ignore else none

/-- An expectation as JSON. -/
def GenerationPolicy.toJson : GenerationPolicy → Json
  | .ignore => .string "ignore"
  | .equal n => .object ⟨[("eq", .integer n.toNat)]⟩
  | .greater n => .object ⟨[("gt", .integer n.toNat)]⟩

/-- The lifetime that JSON stands for. -/
def Expiration.ofJson? (j : Json) : Option Expiration := do
  (Expiration.ofInt64 (← j.toInt64?)).toOption

namespace WritePolicy

/-- The policy that JSON stands for. -/
def ofJson? (j : Json) : Option WritePolicy := do
  let [action, generation, ttl, key] ← j.parts? ["exists", "generation", "ttl", "key"] | none
  return {
    action := ← Json.chosen? RecordExistsAction.table .createOrUpdate action
    generation := ← generation.elim (some .ignore) GenerationPolicy.ofJson?
    ttl := ← ttl.elim (some .namespaceDefault) Expiration.ofJson?
    key := ← Json.chosen? KeyPolicy.table .digest key }

/-- A policy as JSON. -/
def toJson (p : WritePolicy) : Json :=
  .ofFields
    [("exists", Json.ofChoice RecordExistsAction.table p.action),
      ("generation", p.generation.toJson), ("ttl", .integer p.ttl.toInt64.toInt),
      ("key", Json.ofChoice KeyPolicy.table p.key)]

/-- **The policy of a request**: the default one if none is sent. -/
def ofRequest (sent : Option Json) : Except Error WritePolicy :=
  match sent with
  | none | some .null => .ok {}
  | some j =>
    match ofJson? j with
    | some policy => .ok policy
    | none => .error (.param .policyShape)

end WritePolicy

/-! ### Collection policies -/

/-- The policy that JSON stands for. -/
def MapPolicy.ofJson? (j : Json) : Option MapPolicy := do
  let [order, writeMode, noFail, keepRest] ←
    j.parts? ["order", "write_mode", "no_fail", "partial"] | none
  return {
    order := ← Json.chosen? MapOrder.table .unordered order
    writeMode := ← Json.chosen? MapWriteMode.table .update writeMode
    noFail := ← Json.flag? noFail
    keepRest := ← Json.flag? keepRest }

/-- A policy as JSON. -/
def MapPolicy.toJson (p : MapPolicy) : Json :=
  .ofFields
    [("order", Json.ofChoice MapOrder.table p.order),
      ("write_mode", Json.ofChoice MapWriteMode.table p.writeMode), ("no_fail", .bool p.noFail),
      ("partial", .bool p.keepRest)]

/-- The policy that JSON stands for. -/
def ListPolicy.ofJson? (j : Json) : Option ListPolicy := do
  let [addUnique, insertBounded, noFail, keepRest] ←
    j.parts? ["add_unique", "insert_bounded", "no_fail", "partial"] | none
  return {
    addUnique := ← Json.flag? addUnique
    insertBounded := ← Json.flag? insertBounded
    noFail := ← Json.flag? noFail
    keepRest := ← Json.flag? keepRest }

/-- A policy as JSON. -/
def ListPolicy.toJson (p : ListPolicy) : Json :=
  .ofFields
    [("add_unique", .bool p.addUnique), ("insert_bounded", .bool p.insertBounded),
      ("no_fail", .bool p.noFail), ("partial", .bool p.keepRest)]

end RecordStore
