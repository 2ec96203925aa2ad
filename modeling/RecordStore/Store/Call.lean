import RecordStore.Store.Lists

/-!
# Calls as data

A `RecordStore.Store.Call` is a verb of a store together with everything that the
verb is given, apart from the time. A list of calls with their times is a history
of a store: `RecordStore.Store.Call.run` takes one step of it, and
`RecordStore.Store.replay` all of them.
-/

namespace RecordStore.Store

/-- What a call answers. -/
inductive Answer where
  /-- Nothing. -/
  | nothing
  /-- A record. -/
  | record (record : Record)
  /-- Metadata. -/
  | metadata (metadata : Metadata)
  /-- Some keys, each with its record or its error. -/
  | records (entries : List (Key × Except Error Record))
  /-- Some keys, each with its metadata or its error. -/
  | metadataList (entries : List (Key × Except Error Metadata))
  /-- What operations left and answered. -/
  | outcome (outcome : Outcome)
  /-- One slot for each operation. -/
  | slots (slots : List (Option OpResult))
  /-- A value. -/
  | value (value : Value)
  /-- Some values. -/
  | values (values : List Value)
  /-- A number. -/
  | count (n : Nat)

/-- The verbs on a list in a bin. -/
inductive ListVerb where
  /-- Adds a value at the end. -/
  | append (value : Value)
  /-- Adds some values at the end. -/
  | merge (values : List Value)
  /-- Puts a value in front of a position. -/
  | insert (index : Int64) (value : Value)
  /-- Puts some values in front of a position. -/
  | insertItems (index : Int64) (values : List Value)
  /-- Replaces a value. -/
  | set (index : Int64) (value : Value)
  /-- Takes a value out. -/
  | pop (index : Int64)
  /-- Takes a range out. -/
  | popRange (index : Int64) (count : Option UInt64)
  /-- Removes a value. -/
  | remove (index : Int64)
  /-- Removes a range. -/
  | removeRange (index : Int64) (count : Option UInt64)
  /-- Keeps a range. -/
  | trim (index : Int64) (count : UInt64)
  /-- Removes everything. -/
  | clear
  /-- Answers a value. -/
  | get (index : Int64)
  /-- Answers a range. -/
  | getRange (index : Int64) (count : Option UInt64)
  /-- Answers the number of values. -/
  | size

/-- Runs a verb on a list in a bin; reading looks at no policy. -/
def ListVerb.run (verb : ListVerb) (s : Store) (key : Key) (bin : String)
    (policy : WritePolicy) (now : UInt64) : Attempt Store Answer :=
  match verb with
  | append value => (s.listAppend key bin value policy now).map fun _ => .nothing
  | merge values => (s.listMerge key bin values policy now).map fun _ => .nothing
  | insert index value => (s.listInsert key bin index value policy now).map fun _ => .nothing
  | insertItems index values =>
    (s.listInsertItems key bin index values policy now).map fun _ => .nothing
  | set index value => (s.listSet key bin index value policy now).map fun _ => .nothing
  | pop index => (s.listPop key bin index policy now).map .value
  | popRange index count => (s.listPopRange key bin index count policy now).map .values
  | remove index => (s.listRemove key bin index policy now).map fun _ => .nothing
  | removeRange index count =>
    (s.listRemoveRange key bin index count policy now).map fun _ => .nothing
  | trim index count => (s.listTrim key bin index count policy now).map fun _ => .nothing
  | clear => (s.listClear key bin policy now).map fun _ => .nothing
  | get index => (s.listGet key bin index now).map .value
  | getRange index count => (s.listGetRange key bin index count now).map .values
  | size => (s.listSize key bin now).map .count

/-- A verb with everything that it is given, apart from the time. -/
inductive Call where
  /-- Writes bins. -/
  | put (key : Key) (bins : Bins) (policy : WritePolicy)
  /-- Reads a record. -/
  | get (key : Key)
  /-- Reads some bins. -/
  | select (key : Key) (bins : List String)
  /-- Reads metadata. -/
  | metadata (key : Key)
  /-- Reads many records. -/
  | getMany (keys : List Key) (bins : Option (List String))
  /-- Reads the metadata of many records. -/
  | metadataMany (keys : List Key)
  /-- Sets the lifetime anew. -/
  | touch (key : Key) (ttl : Expiration)
  /-- Deletes a record. -/
  | remove (key : Key) (policy : WritePolicy)
  /-- Drops bins. -/
  | removeBins (key : Key) (bins : List String) (policy : WritePolicy)
  /-- Adds at the end of a bin. -/
  | append (key : Key) (bin : String) (value : Value) (policy : WritePolicy)
  /-- Adds in front of a bin. -/
  | prepend (key : Key) (bin : String) (value : Value) (policy : WritePolicy)
  /-- Adds to the number in a bin. -/
  | increment (key : Key) (bin : String) (delta : Value) (policy : WritePolicy)
  /-- Applies operations. -/
  | operate (key : Key) (ops : List Operation) (policy : WritePolicy)
  /-- Applies operations and answers one slot for each. -/
  | operateOrdered (key : Key) (ops : List Operation) (policy : WritePolicy)
  /-- A verb on a list in a bin. -/
  | onList (key : Key) (bin : String) (verb : ListVerb) (policy : WritePolicy)
  /-- Removes many records. -/
  | truncate (set : Option String) (before : Option UInt64)
  /-- Drops every expired record. -/
  | reapExpired
  /-- Counts the records. -/
  | size

/-- **Runs a call** at a time. -/
def Call.run (call : Call) (s : Store) (now : UInt64) : Attempt Store Answer :=
  match call with
  | put key bins policy => (s.put key bins policy now).map fun _ => .nothing
  | get key => ⟨(s.get key now).map .record, s⟩
  | select key bins => ⟨(s.select key bins now).map .record, s⟩
  | metadata key => ⟨(s.metadata key now).map .metadata, s⟩
  | getMany keys bins => .done (.records (s.getMany keys bins now)) s
  | metadataMany keys => .done (.metadataList (s.metadataMany keys now)) s
  | touch key ttl => (s.touch key ttl now).map .metadata
  | remove key policy => (s.remove key policy now).map fun _ => .nothing
  | removeBins key bins policy => (s.removeBins key bins policy now).map fun _ => .nothing
  | append key bin value policy => (s.append key bin value policy now).map fun _ => .nothing
  | prepend key bin value policy => (s.prepend key bin value policy now).map fun _ => .nothing
  | increment key bin delta policy =>
    (s.increment key bin delta policy now).map fun _ => .nothing
  | operate key ops policy => (s.operate key ops policy now).map .outcome
  | operateOrdered key ops policy => (s.operateOrdered key ops policy now).map .slots
  | onList key bin verb policy => verb.run s key bin policy now
  | truncate set before => (s.truncate set before now).map .count
  | reapExpired =>
    let (removed, kept) := s.reapExpired now
    .done (.count removed) kept
  | size => .done (.count (s.size now)) s

/-- **Replays a history**: runs calls one after the other, each at its time, and
answers what each of them answers. -/
def replay (s : Store) : (history : List (Call × UInt64)) → List (Except Error Answer) × Store
  | [] => ([], s)
  | (call, now) :: rest =>
    let first := call.run s now
    let (answers, last) := replay first.state rest
    (first.result :: answers, last)

end RecordStore.Store
