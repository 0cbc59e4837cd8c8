import MemoBoard.Board.Labels
import MemoBoard.Board.Location
import MemoBoard.Json.Record

/-! Memos as the board shows them. `pinned` is the mark of the memo's own creator, and the parent is
the memo that a comment comments on. Times are epoch seconds. -/

namespace MemoBoard

structure Memo where
  id : Int
  name : String
  creatorId : Int
  createdAt : Int
  updatedAt : Int
  status : Status
  visibility : Visibility
  pinned : Bool
  parentId : Option Int
  location : Location
  content : String
  deriving DecidableEq

/-- A memo on the map, with the name and the picture of its creator. -/
structure Marker where
  id : Int
  name : String
  creatorId : Int
  creatorName : Option String
  avatarUrl : Option String
  visibility : Visibility
  createdAt : Int
  locationName : String
  latitude : Float
  longitude : Float
  content : String
  deriving DecidableEq

/-- What a new memo is made from. -/
structure Draft where
  name : String
  creatorId : Int
  content : String
  visibility : Visibility
  location : Location
  deriving DecidableEq

/-- A change to one memo; what is absent stays as it is. -/
structure Amendment where
  id : Int
  name : Option String
  createdAt : Option Int
  updatedAt : Option Int
  status : Option Status
  content : Option String
  visibility : Option Visibility
  locationName : Option String
  deriving DecidableEq

def Amendment.nothing (id : Int) : Amendment := ⟨id, none, none, none, none, none, none, none⟩

open Json in
def Memo.record : Record Memo where
  fields :=
    [⟨"id", .word, false⟩, ⟨"resource_name", .text, false⟩, ⟨"creator_id", .word, false⟩,
     ⟨"created_ts", .word, false⟩, ⟨"updated_ts", .word, false⟩,
     ⟨"row_status", .choice Status.names, false⟩, ⟨"visibility", .choice Visibility.names, false⟩,
     ⟨"pinned", .flag, false⟩, ⟨"parent_id", .word, true⟩, ⟨"location_name", .text, true⟩,
     ⟨"location_lat", .real, true⟩, ⟨"location_lon", .real, true⟩, ⟨"content", .text, false⟩]
  values m :=
    [.int m.id, .text m.name, .int m.creatorId, .int m.createdAt, .int m.updatedAt,
     .text m.status.name, .text m.visibility.name, .bool m.pinned, optional .int m.parentId,
     optional .text m.location.name, optional .real m.location.latitude,
     optional .real m.location.longitude, .text m.content]
  build?
    | [.int id, .text name, .int creatorId, .int createdAt, .int updatedAt, .text status,
        .text visibility, .bool pinned, parent, place, latitude, longitude, .text content] => do
        some {
          id, name, creatorId, createdAt, updatedAt, pinned, content
          status := ← Status.ofName? status
          visibility := ← Visibility.ofName? visibility
          parentId := ← optional? int? parent
          location := ⟨← optional? text? place, ← optional? real? latitude, ← optional? real? longitude⟩ }
    | _ => none

open Json in
def Marker.record : Record Marker where
  fields :=
    [⟨"id", .word, false⟩, ⟨"resource_name", .text, false⟩, ⟨"creator_id", .word, false⟩,
     ⟨"creator_name", .text, true⟩, ⟨"avatar_url", .text, true⟩,
     ⟨"visibility", .choice Visibility.names, false⟩, ⟨"created_ts", .word, false⟩,
     ⟨"location_name", .text, false⟩, ⟨"location_lat", .real, false⟩, ⟨"location_lon", .real, false⟩,
     ⟨"content", .text, false⟩]
  values m :=
    [.int m.id, .text m.name, .int m.creatorId, optional .text m.creatorName, optional .text m.avatarUrl,
     .text m.visibility.name, .int m.createdAt, .text m.locationName, .real m.latitude, .real m.longitude,
     .text m.content]
  build?
    | [.int id, .text name, .int creatorId, creatorName, avatarUrl, .text visibility, .int createdAt,
        .text locationName, .real latitude, .real longitude, .text content] => do
        some {
          id, name, creatorId, createdAt, locationName, latitude, longitude, content
          creatorName := ← optional? text? creatorName
          avatarUrl := ← optional? text? avatarUrl
          visibility := ← Visibility.ofName? visibility }
    | _ => none

end MemoBoard
