import Srnp.Codec
import Srnp.Lib.Reading

/-! The messages between a component and the master. -/
namespace Srnp
open Wire Reading

structure IndicatePresence where
  port : Bytes
  forceOwnerId : Bool := false
  ownerId : OwnerId := kAnyOwner
deriving DecidableEq, Repr

structure ComponentInfo where
  owner : OwnerId
  ip : Bytes
  port : Bytes
deriving DecidableEq, Repr

inductive UpdateOperation where
  | add
  | remove
deriving DecidableEq

/-- What the master tells the components it knows. -/
structure UpdateComponents where
  operation : UpdateOperation
  component : ComponentInfo

/-- The master's reply: our owner id, and everyone who registered before us. -/
structure MasterMessage where
  owner : OwnerId
  allComponents : List ComponentInfo

def UpdateOperation.code : UpdateOperation → UInt8
  | .add => 0
  | .remove => 1

def encodeIndicatePresence (message : IndicatePresence) : Except DecodeError Bytes := do
  let port ← Writer.string message.port
  pure (port ++ Writer.boolean message.forceOwnerId ++ Writer.i32 message.ownerId)

def encodeComponentInfo (message : ComponentInfo) : Except DecodeError Bytes := do
  let ip ← Writer.string message.ip
  let port ← Writer.string message.port
  pure (Writer.i32 message.owner ++ ip ++ port)

def encodeUpdateComponents (message : UpdateComponents) : Except DecodeError Bytes := do
  let component ← encodeComponentInfo message.component
  pure (Writer.u8 message.operation.code ++ component)

def encodeMasterMessage (message : MasterMessage) : Except DecodeError Bytes := do
  let components ← writeEach encodeComponentInfo message.allComponents
  pure (Writer.i32 message.owner ++ Writer.u32 (UInt32.ofNat message.allComponents.length) ++
    components)

end Srnp
