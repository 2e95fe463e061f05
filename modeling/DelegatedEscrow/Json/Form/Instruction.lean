/-
DelegatedEscrow/Json/Form/Instruction.lean

The JSON form of instructions.  The member `op` is the tag that tells which
instruction it is, wherever it stands; in an array the tag comes first, and the
fields follow.  A tag is made from the name that an instruction is declared with.

Which fields an instruction has is known only once its tag has been found, so a
reader holds the whole of it as a tree.  It can hold numbers of double precision
and text, and arrays and objects nested up to a limit; an instruction with
anything else in it is refused, even in a member that nobody asks for.
-/
import DelegatedEscrow.Instruction
import DelegatedEscrow.Json.Form.Account

namespace DelegatedEscrow

open Json JsonForm

namespace Instruction

/-- How deep arrays and objects may be nested, counted from the outermost. -/
def maxDepth : Nat := 127

/-- The key of the tag. -/
def tagKey : String := "op"

/-- The tag of an instruction, and its fields with or without the tag. -/
def split? : Json → Option (String × Json)
  | .array (.scalar (.text (some tag)) :: fields) => some (tag, .array fields)
  | .object members =>
    match member? members tagKey with
    | some (some (.scalar (.text (some tag)))) => some (tag, .object members)
    | _ => none
  | _ => none

/-- Once an authority is held as a tree, an empty object is no data, too. -/
def emptyIsNull : Json → Json
  | .object [(tag, .object [])] => .object [(tag, .null)]
  | v => v

/-- A field that names an authority. -/
def authority? (depth : Nat) (field : Option Json) : Option Authority :=
  required? depth (field.map emptyIsNull)

/-- Caps that may be left out. -/
def caps? (depth : Nat) : Option Json → Option LifetimeCaps
  | none => some .unlimited
  | some v => ofJson? (depth + 1) v

/-- The fields of an action that needs the escrow only. -/
def ofEscrow? (depth : Nat) (v : Json) (action : Action) : Option Instruction := do
  let [escrow] ← v.fields? ["escrow"] | none
  return .act (← required? depth escrow) action

/-- The fields of an action that moves an amount and needs nothing else. -/
def ofAmount? (depth : Nat) (v : Json) (action : Amount → Action) : Option Instruction := do
  let [escrow, amount] ← v.fields? ["escrow", "amount"] | none
  return .act (← required? depth escrow) (action (← required? depth amount))

/-- Reads the fields of an instruction with a given tag. -/
def ofFields? (depth : Nat) (tag : String) (v : Json) : Option Instruction :=
  match tag with
  | "initialize" => do
    let [mint, ceiling, caps] ←
      v.fieldsUpTo? 1 ["token_mint", "max_balance", "lifetime_limits"] | none
    return .create (← required? depth mint) (← required? depth ceiling) (← caps? depth caps)
  | "deposit" => ofAmount? depth v .deposit
  | "withdraw" => ofAmount? depth v .withdraw
  | "emergency_withdraw" => ofAmount? depth v .emergencyWithdraw
  | "platform_fee_withdraw" => do
    let [escrow, amount, nonce] ← v.fields? ["escrow", "amount", "nonce"] | none
    return .act (← required? depth escrow)
      (.collectFee (← required? depth amount) (← required? depth nonce))
  | "trade_withdraw" => do
    let [escrow, amount, nonce, deadline] ←
      v.fields? ["escrow", "amount", "nonce", "deadline"] | none
    return .act (← required? depth escrow)
      (.trade (← required? depth amount) (← required? depth nonce)
        (← required? depth deadline))
  | "delegate" => do
    let [escrow, a, d] ← v.fields? ["escrow", "kind", "authority"] | none
    return .act (← required? depth escrow)
      (.delegate (← authority? depth a) (← required? depth d))
  | "revoke" => do
    let [escrow, a] ← v.fields? ["escrow", "kind"] | none
    return .act (← required? depth escrow) (.revoke (← authority? depth a))
  | "pause" => ofEscrow? depth v .pause
  | "unpause" => ofEscrow? depth v .unpause
  | "set_max_lifetime" => do
    let [escrow, secs] ← v.fields? ["escrow", "secs"] | none
    return .act (← required? depth escrow) (.setLifetime (← required? depth secs))
  | "close" => ofEscrow? depth v .close
  | _ => none

/-- The fields of an action, apart from the escrow. -/
def actionFields : Action → List (String × Json)
  | .deposit amount | .withdraw amount | .emergencyWithdraw amount =>
    [("amount", toJson amount)]
  | .collectFee amount nonce => [("amount", toJson amount), ("nonce", toJson nonce)]
  | .trade amount nonce deadline =>
    [("amount", toJson amount), ("nonce", toJson nonce), ("deadline", toJson deadline)]
  | .delegate a d => [("kind", toJson a), ("authority", toJson d)]
  | .revoke a => [("kind", toJson a)]
  | .setLifetime secs => [("secs", toJson secs)]
  | .pause | .unpause | .close => []

/-- The fields of an instruction. -/
def fields : Instruction → List (String × Json)
  | .create mint ceiling caps =>
    [("token_mint", toJson mint), ("max_balance", toJson ceiling),
      ("lifetime_limits", toJson caps)]
  | .act escrow action => ("escrow", toJson escrow) :: actionFields action

/-- The name that an instruction is declared with. -/
def declaredName : Instruction → String
  | .create .. => "Initialize"
  | .act _ (.deposit _) => "Deposit"
  | .act _ (.withdraw _) => "Withdraw"
  | .act _ (.emergencyWithdraw _) => "EmergencyWithdraw"
  | .act _ (.collectFee ..) => "PlatformFeeWithdraw"
  | .act _ (.trade ..) => "TradeWithdraw"
  | .act _ (.delegate ..) => "Delegate"
  | .act _ (.revoke _) => "Revoke"
  | .act _ .pause => "Pause"
  | .act _ .unpause => "Unpause"
  | .act _ (.setLifetime _) => "SetMaxLifetime"
  | .act _ .close => "Close"

/-- A declared name in small letters, with an underscore before each capital but the
first. -/
def snakeCase (declared : String) : String :=
  match declared.toList with
  | [] => ""
  | first :: rest =>
    String.ofList
      (first.toLower :: rest.flatMap fun c => if c.isUpper then ['_', c.toLower] else [c])

/-- The tag of an instruction. -/
def tag (i : Instruction) : String := snakeCase i.declaredName

instance : JsonForm Instruction where
  toJson i := record ((tagKey, text i.tag) :: i.fields)
  ofJson? depth v := do
    if ¬ (v.plain ∧ v.depth + depth ≤ maxDepth) then none
    let (tag, fields) ← split? v
    ofFields? depth tag fields

end Instruction

instance : JsonForm Signed where
  toJson s := record [("signer", toJson s.signer), ("instruction", toJson s.instruction)]
  ofJson? depth v := do
    let [signer, instruction] ← v.fields? ["signer", "instruction"] | none
    return ⟨← required? depth signer, ← required? depth instruction⟩

end DelegatedEscrow
