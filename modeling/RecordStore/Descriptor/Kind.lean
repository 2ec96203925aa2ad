/-!
# Names of operations

Callers name operations by text. Most names stand for one operation each; the
selecting ones are built from three parts, the container, whether the selected
elements are removed, and the shape of the selector, as in
`map_remove_by_value_range`. A list has no keys, so the shapes by key exist for
maps alone.

A text is read by looking it up among the names of all kinds
(`RecordStore.OpKind.ofName?`), so reading accepts exactly what writing produces.
-/

namespace RecordStore

/-- What a selecting operation selects from. -/
inductive Container where
  /-- A list. -/
  | list
  /-- A map. -/
  | map
deriving DecidableEq, Inhabited

/-- The shape of a selector. -/
inductive Shape where
  /-- One index. -/
  | index
  /-- So many indices from one on. -/
  | indexRange
  /-- All indices from one on. -/
  | indexRangeToEnd
  /-- One rank. -/
  | rank
  /-- So many ranks from one on. -/
  | rankRange
  /-- All ranks from one on. -/
  | rankRangeToEnd
  /-- One value. -/
  | value
  /-- Some values. -/
  | valueList
  /-- An interval of values. -/
  | valueRange
  /-- So many ranks, counted from a value. -/
  | valueRelRankRange
  /-- All ranks, counted from a value. -/
  | valueRelRankRangeToEnd
  /-- One key. -/
  | key
  /-- Some keys. -/
  | keyList
  /-- An interval of keys. -/
  | keyRange
deriving DecidableEq, Inhabited

namespace Shape

/-- The name of a shape. -/
def name : Shape → String
  | index => "index"
  | indexRange => "index_range"
  | indexRangeToEnd => "index_range_to_end"
  | rank => "rank"
  | rankRange => "rank_range"
  | rankRangeToEnd => "rank_range_to_end"
  | value => "value"
  | valueList => "value_list"
  | valueRange => "value_range"
  | valueRelRankRange => "value_rel_rank_range"
  | valueRelRankRangeToEnd => "value_rel_rank_range_to_end"
  | key => "key"
  | keyList => "key_list"
  | keyRange => "key_range"

/-- The shapes that address no keys. -/
def keyless : List Shape :=
  [index, indexRange, indexRangeToEnd, rank, rankRange, rankRangeToEnd, value, valueList,
    valueRange, valueRelRankRange, valueRelRankRangeToEnd]

/-- All shapes. -/
def all : List Shape := keyless ++ [key, keyList, keyRange]

end Shape

/-- What kind of operation is asked for. -/
inductive OpKind where
  /-- Store a value in a bin. -/
  | write
  /-- Read a bin. -/
  | read
  /-- Add to a number. -/
  | incr
  /-- Add at the end of a bin. -/
  | append
  /-- Add in front of a bin. -/
  | prepend
  /-- Set the lifetime anew. -/
  | touch
  /-- Delete the record. -/
  | delete
  /-- Add a value at the end of a list. -/
  | listAppend
  /-- Add some values at the end of a list. -/
  | listMerge
  /-- Put a value in front of a position. -/
  | listInsert
  /-- Put some values in front of a position. -/
  | listInsertItems
  /-- Replace a value. -/
  | listSet
  /-- Take a value out. -/
  | listPop
  /-- Take a range out. -/
  | listPopRange
  /-- Take everything from a position on out. -/
  | listPopRangeFrom
  /-- Remove a value. -/
  | listRemove
  /-- Remove a range. -/
  | listRemoveRange
  /-- Remove everything from a position on. -/
  | listRemoveRangeFrom
  /-- Answer a value. -/
  | listGet
  /-- Answer a range. -/
  | listGetRange
  /-- Answer everything from a position on. -/
  | listGetRangeFrom
  /-- Keep a range. -/
  | listTrim
  /-- Remove everything from a list. -/
  | listClear
  /-- Answer the number of values. -/
  | listSize
  /-- Change the order policy of a map. -/
  | mapSetPolicy
  /-- Write an entry. -/
  | mapPut
  /-- Write some entries. -/
  | mapPutItems
  /-- Add to the value of an entry. -/
  | mapIncrement
  /-- Subtract from the value of an entry. -/
  | mapDecrement
  /-- Remove everything from a map. -/
  | mapClear
  /-- Answer the number of entries. -/
  | mapSize
  /-- Report on selected elements, and remove them or not. -/
  | select (container : Container) (remove : Bool) (shape : Shape)
deriving DecidableEq, Inhabited

namespace OpKind

/-- The name of a kind. -/
def name : OpKind → String
  | write => "write"
  | read => "read"
  | incr => "incr"
  | append => "append"
  | prepend => "prepend"
  | touch => "touch"
  | delete => "delete"
  | listAppend => "list_append"
  | listMerge => "list_merge"
  | listInsert => "list_insert"
  | listInsertItems => "list_insert_items"
  | listSet => "list_set"
  | listPop => "list_pop"
  | listPopRange => "list_pop_range"
  | listPopRangeFrom => "list_pop_range_from"
  | listRemove => "list_remove"
  | listRemoveRange => "list_remove_range"
  | listRemoveRangeFrom => "list_remove_range_from"
  | listGet => "list_get"
  | listGetRange => "list_get_range"
  | listGetRangeFrom => "list_get_range_from"
  | listTrim => "list_trim"
  | listClear => "list_clear"
  | listSize => "list_size"
  | mapSetPolicy => "map_set_policy"
  | mapPut => "map_put"
  | mapPutItems => "map_put_items"
  | mapIncrement => "map_increment"
  | mapDecrement => "map_decrement"
  | mapClear => "map_clear"
  | mapSize => "map_size"
  | select container remove shape =>
    (match container with | .list => "list_" | .map => "map_") ++
      (if remove then "remove_by_" else "get_by_") ++ shape.name

/-- The kinds that select nothing. -/
def plain : List OpKind :=
  [write, read, incr, append, prepend, touch, delete, listAppend, listMerge, listInsert,
    listInsertItems, listSet, listPop, listPopRange, listPopRangeFrom, listRemove,
    listRemoveRange, listRemoveRangeFrom, listGet, listGetRange, listGetRangeFrom, listTrim,
    listClear, listSize, mapSetPolicy, mapPut, mapPutItems, mapIncrement, mapDecrement,
    mapClear, mapSize]

/-- The kinds that select. -/
def selecting : List OpKind :=
  [false, true].flatMap fun remove =>
    Shape.keyless.map (select .list remove) ++ Shape.all.map (select .map remove)

/-- All kinds that have a name, each with its name. -/
def table : List (String × OpKind) :=
  (plain ++ selecting).map fun kind => (kind.name, kind)

/-- The kind that a text names. -/
def ofName? (text : String) : Option OpKind :=
  table.lookup text

end OpKind

end RecordStore
