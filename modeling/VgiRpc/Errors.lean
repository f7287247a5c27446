import Mathlib.Logic.Basic

/-!
# RPC errors

The error every fallible operation of the framework returns: a category named
after the exception class a peer would raise, and a message.
-/

namespace VgiRpc

structure RpcError where
  errorType : String
  message : String
  deriving DecidableEq, Repr

namespace RpcError

variable (message : String)

def valueError : RpcError := ⟨"ValueError", message⟩

def runtimeError : RpcError := ⟨"RuntimeError", message⟩

def typeError : RpcError := ⟨"TypeError", message⟩

def protocolError : RpcError := ⟨"ProtocolError", message⟩

def versionError : RpcError := ⟨"VersionError", message⟩

def sessionLostError : RpcError := ⟨"SessionLostError", message⟩

def serverDrainingError : RpcError := ⟨"ServerDrainingError", message⟩

def ipc : RpcError := ⟨"IPC", message⟩

/-- A transport failure, as `std::io::Error` converts into. -/
def io : RpcError := ⟨"IOError", message⟩

end RpcError
end VgiRpc
