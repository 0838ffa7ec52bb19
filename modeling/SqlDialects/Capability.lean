import SqlDialects.Version

/-!
# Capabilities

Features that a database product may or may not have, each behind a gate on the product's version.
-/

namespace SqlDialects

inductive Capability where
  | unionAll
  /-- Set operations inside a subquery. -/
  | unionInSubquery
  /-- Scalar subqueries in the select list. -/
  | subqueryInSelect
  | orderByInSubquery
  /-- A subquery or tuple as the left operand of `in`. -/
  | subselectAsInPredicateLhs
  /-- `count(distinct (a, b))`. -/
  | tupleDistinctCounts
  /-- `(a, b) = (x, y)`. -/
  | rowValueConstructorSyntax
  /-- `nulls first` and `nulls last`. -/
  | nullsOrdering
  /-- A boolean column type with the literals `true` and `false`. -/
  | nativeBoolean
  /-- A pagination clause with an offset. -/
  | fetchClause
  | lockNoWait
  | lockSkipLocked
  /-- A statement that selects the current timestamp without a table. -/
  | currentTimestampSelection
  | sequences
  /-- Sequences that hand out blocks of values. -/
  | pooledSequences
  | identityColumns
  /-- `drop table if exists x`. -/
  | ifExistsBeforeTableName
  /-- `drop table x if exists`. -/
  | ifExistsAfterTableName
  | foreignKeyConstraints
  /-- `ilike`. -/
  | caseInsensitiveLike
  /-- Large objects are read through locators. -/
  | expectedLobUsagePattern
  | readCommittedCausesWritersToBlockReaders
  | repeatableReadCausesReadersToBlockWriters
  deriving DecidableEq, Repr

namespace Capability

def all : List Capability :=
  [unionAll, unionInSubquery, subqueryInSelect, orderByInSubquery, subselectAsInPredicateLhs,
    tupleDistinctCounts, rowValueConstructorSyntax, nullsOrdering, nativeBoolean, fetchClause,
    lockNoWait, lockSkipLocked, currentTimestampSelection, sequences, pooledSequences,
    identityColumns, ifExistsBeforeTableName, ifExistsAfterTableName, foreignKeyConstraints,
    caseInsensitiveLike, expectedLobUsagePattern, readCommittedCausesWritersToBlockReaders,
    repeatableReadCausesReadersToBlockWriters]

/-- The name in settings and reports. -/
def name : Capability → String
  | unionAll => "supports_union_all"
  | unionInSubquery => "supports_union_in_subquery"
  | subqueryInSelect => "supports_subquery_in_select"
  | orderByInSubquery => "supports_order_by_in_subquery"
  | subselectAsInPredicateLhs => "supports_subselect_as_in_predicate_lhs"
  | tupleDistinctCounts => "supports_tuple_distinct_counts"
  | rowValueConstructorSyntax => "supports_row_value_constructor_syntax"
  | nullsOrdering => "supports_nulls_ordering"
  | nativeBoolean => "supports_native_boolean"
  | fetchClause => "supports_fetch_clause"
  | lockNoWait => "supports_lock_nowait"
  | lockSkipLocked => "supports_lock_skip_locked"
  | currentTimestampSelection => "supports_current_timestamp_selection"
  | sequences => "supports_sequences"
  | pooledSequences => "supports_pooled_sequences"
  | identityColumns => "supports_identity_columns"
  | ifExistsBeforeTableName => "supports_if_exists_before_table_name"
  | ifExistsAfterTableName => "supports_if_exists_after_table_name"
  | foreignKeyConstraints => "supports_foreign_key_constraints"
  | caseInsensitiveLike => "supports_case_insensitive_like"
  | expectedLobUsagePattern => "supports_expected_lob_usage_pattern"
  | readCommittedCausesWritersToBlockReaders => "read_committed_causes_writers_to_block_readers"
  | repeatableReadCausesReadersToBlockWriters => "repeatable_read_causes_readers_to_block_writers"

def ofName? (name : String) : Option Capability := all.find? (·.name == name)

end Capability

/-! ## Gates -/

/-- The versions that have a capability. -/
inductive Gate where
  | always
  | never
  | since (version : Version)
  | before (version : Version)
  deriving DecidableEq, Repr

namespace Gate

def ofBool (isOpen : Bool) : Gate := if isOpen then always else never

def admits (gate : Gate) (version : Version) : Bool :=
  match gate with
  | always => true
  | never => false
  | since first => version.isSince first
  | before limit => version.isBefore limit

end Gate

/-! ## Profiles -/

/-- The gates of all capabilities at one version. A gate that nobody has set stays shut. -/
structure CapabilityProfile where
  version : Version
  gate : Capability → Gate := fun _ => .never

namespace CapabilityProfile

def set (profile : CapabilityProfile) (capability : Capability) (gate : Gate) :
    CapabilityProfile :=
  { profile with gate := fun c => if c = capability then gate else profile.gate c }

def setAll (profile : CapabilityProfile) (gates : List (Capability × Gate)) : CapabilityProfile :=
  gates.foldl (fun p g => p.set g.1 g.2) profile

def supports (profile : CapabilityProfile) (capability : Capability) : Bool :=
  (profile.gate capability).admits profile.version

/-- The first version with the capability, where the gate opens at a version. -/
def minimumVersion (profile : CapabilityProfile) (capability : Capability) : Option Version :=
  match profile.gate capability with
  | .since first => some first
  | _ => none

def supported (profile : CapabilityProfile) : List Capability :=
  Capability.all.filter profile.supports

end CapabilityProfile

/-- What a database keeps of the offset of a point in time. -/
inductive TimeZoneSupport where
  | none
  /-- A timestamp is stored with its offset. -/
  | native
  /-- A timestamp is moved to the universal time zone first. -/
  | normalize
  deriving DecidableEq, Repr

namespace TimeZoneSupport

def all : List TimeZoneSupport := [none, native, normalize]

def name : TimeZoneSupport → String
  | none => "none"
  | native => "native"
  | normalize => "normalize"

def ofName? (name : String) : Option TimeZoneSupport := all.find? (·.name == name)

end TimeZoneSupport

end SqlDialects
