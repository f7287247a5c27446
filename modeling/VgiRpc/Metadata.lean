import VgiRpc.Library.OrderedMap

/-!
# Batch metadata

The per-batch `custom_metadata` pairs and the well-known keys the protocol puts
there.  A value of the type is a map together with the order its iteration
happens to have, which the wire format follows.
-/

namespace VgiRpc

abbrev Metadata := Library.OrderedMap String String

namespace Metadata

def rpcMethodKey : String := "vgi_rpc.method"
def protocolKey : String := "vgi_rpc.protocol"
def requestVersionKey : String := "vgi_rpc.request_version"
def requestVersion : String := "1"
def requestIdKey : String := "vgi_rpc.request_id"
def protocolVersionKey : String := "vgi_rpc.protocol_version"
def errorKindKey : String := "vgi_rpc.error_kind"
def errorCodeKey : String := "vgi_rpc.error_code"
def errorDetailsKey : String := "vgi_rpc.error_details"
def logLevelKey : String := "vgi_rpc.log_level"
def logMessageKey : String := "vgi_rpc.log_message"
def logExtraKey : String := "vgi_rpc.log_extra"
def serverIdKey : String := "vgi_rpc.server_id"
def stateKey : String := "vgi_rpc.stream_state#b64"
def callStateKey : String := "vgi_rpc.call_state#b64"
def cancelKey : String := "vgi_rpc.cancel"
def locationKey : String := "vgi_rpc.location"
def locationSha256Key : String := "vgi_rpc.location.sha256"
def locationFetchMsKey : String := "vgi_rpc.location.fetch_ms"
def locationSourceKey : String := "vgi_rpc.location.source"
def shmOffsetKey : String := "vgi_rpc.shm_offset"
def shmLengthKey : String := "vgi_rpc.shm_length"
def shmSourceKey : String := "vgi_rpc.shm_source"
def shmSegmentNameKey : String := "vgi_rpc.shm_segment_name"
def shmSegmentSizeKey : String := "vgi_rpc.shm_segment_size"

/-- The reader's marker for a batch whose metadata was not valid UTF-8. -/
def invalidUtf8MetadataKey : String := "\x00vgi_rpc.invalid_utf8_metadata"

def mdGet (metadata : Metadata) (key : String) : Option String := metadata.get? key

end Metadata
end VgiRpc
