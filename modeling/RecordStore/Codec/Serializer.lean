import RecordStore.Error.Basic
import RecordStore.Json.Printer
import RecordStore.Json.Reader

/-!
# Serializers

Truth values are JSON and no bin type. A `RecordStore.Serializer` says what
becomes of them: it turns them into bytes on the way in and recognises its own
bytes on the way out. Two serializers have names, one that has no bytes for
anything and one that writes JSON text behind a frame marker.
-/

namespace RecordStore

/-- A way to keep JSON that has no bin type as bytes. -/
structure Serializer where
  /-- The bytes for a JSON value. -/
  encode : Json → Except Error (List UInt8)
  /-- The JSON value that bytes were made of; none for any other bytes. -/
  decode : List UInt8 → Option Json

namespace Serializer

/-- The serializer that has no bytes for anything. -/
def none : Serializer where
  encode j := .error (.param (.noSerializer j.render))
  decode _ := Option.none

/-- The marker in front of JSON text. -/
def frameMarker : List UInt8 := "\x00akv:json\x00".toUTF8.toList

/-- What follows the frame marker, if bytes begin with it. -/
def unframe (bytes : List UInt8) : Option (List UInt8) :=
  if frameMarker.isPrefixOf bytes then some (bytes.drop frameMarker.length) else Option.none

/-- **The serializer that writes JSON text behind the frame marker.** Bytes
without the marker, or without JSON behind it, are none of its own. -/
def framed : Serializer where
  encode j := .ok (frameMarker ++ j.render.toUTF8.toList)
  decode bytes := do
    let body ← unframe bytes
    Json.ofText? (← String.fromUTF8? ⟨body.toArray⟩)

/-- The serializer of a name. -/
def named (name : String) : Except Error Serializer :=
  if name = "none" then .ok none
  else if name = "json" then .ok framed
  else .error (.param (.unknownSerializer name))

end Serializer

end RecordStore
