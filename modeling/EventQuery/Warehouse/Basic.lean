import EventQuery.Catalog.DataType
import EventQuery.Number.Reading
import EventQuery.Text.Blank
import EventQuery.Text.LetterCase
import EventQuery.Text.Search
import EventQuery.Text.Split

/-! Data warehouses and the types of their columns. Each warehouse names a column's type by a code
or by a name, and a table gives the type that it stands for. -/

namespace EventQuery

inductive Warehouse where
  | snowflake
  | duckDb
  | postgres
  | bigQuery
deriving DecidableEq

/-- The type of a column as a warehouse reports it. -/
inductive NativeType where
  | code (n : Int)
  | named (name : String)
deriving DecidableEq

def NativeType.text : NativeType → String
  | .code n => toString n
  | .named name => name

namespace Warehouse

def text : Warehouse → String
  | .snowflake => "snowflake"
  | .duckDb => "duckdb"
  | .postgres => "postgres"
  | .bigQuery => "bigquery"

def display : Warehouse → String
  | .snowflake => "Snowflake"
  | .duckDb => "DuckDB"
  | .postgres => "Postgres"
  | .bigQuery => "BigQuery"

/-- Every accepted name in small letters. -/
def names : List (String × Warehouse) := [
  ("snowflake", .snowflake), ("duckdb", .duckDb), ("duck", .duckDb), ("postgres", .postgres),
  ("postgresql", .postgres), ("bigquery", .bigQuery)]

def snowflakeCodes : List (Int × DataType) := [
  (0, .integer), (1, .float), (2, .string), (3, .date), (6, .timestamp), (7, .timestamp),
  (8, .timestamp), (12, .time), (13, .boolean)]

def duckDbNames : List (String × DataType) := [
  ("TINYINT", .integer), ("SMALLINT", .integer), ("INTEGER", .integer), ("BIGINT", .integer),
  ("HUGEINT", .integer), ("UTINYINT", .integer), ("USMALLINT", .integer), ("UINTEGER", .integer),
  ("UBIGINT", .integer), ("REAL", .float), ("FLOAT", .float), ("DOUBLE", .float),
  ("VARCHAR", .string), ("CHAR", .string), ("TEXT", .string), ("UUID", .string), ("DATE", .date),
  ("BOOLEAN", .boolean)]

/-- Families of types by the start of their names; the first that fits counts. -/
def duckDbFamilies : List (String × DataType) := [
  ("DECIMAL", .float), ("NUMERIC", .float), ("TIMESTAMP", .timestamp), ("TIME", .time)]

def postgresCodes : List (Int × String) := [
  (16, "bool"), (20, "int8"), (21, "int2"), (23, "int4"), (25, "text"), (114, "json"),
  (700, "float4"), (701, "float8"), (1042, "bpchar"), (1043, "varchar"), (1082, "date"),
  (1083, "time"), (1114, "timestamp"), (1184, "timestamptz"), (1266, "timetz"),
  (1700, "numeric"), (2950, "uuid"), (3802, "jsonb")]

def postgresNames : List (String × DataType) := [
  ("int2", .integer), ("int4", .integer), ("int8", .integer), ("numeric", .float),
  ("decimal", .float), ("float4", .float), ("float8", .float), ("text", .string),
  ("varchar", .string), ("bpchar", .string), ("uuid", .string), ("json", .string),
  ("jsonb", .string), ("date", .date), ("time", .time), ("timetz", .time),
  ("timestamp", .timestamp), ("timestamptz", .timestamp), ("bool", .boolean)]

/-- Pieces of the names that drivers give; the first that occurs counts. -/
def postgresPieces : List (String × DataType) := [
  ("int8", .integer), ("int16", .integer), ("int32", .integer), ("int64", .integer),
  ("numeric", .float), ("decimal", .float), ("float", .float), ("double", .float),
  ("string", .string), ("text", .string), ("json", .string), ("uuid", .string),
  ("timestamp", .timestamp), ("date", .date), ("time", .time), ("bool", .boolean)]

def bigQueryNames : List (String × DataType) := [
  ("INT64", .integer), ("INTEGER", .integer), ("FLOAT64", .float), ("FLOAT", .float),
  ("NUMERIC", .float), ("BIGNUMERIC", .float), ("STRING", .string), ("BYTES", .string),
  ("JSON", .string), ("GEOGRAPHY", .string), ("DATE", .date), ("TIME", .time),
  ("TIMESTAMP", .timestamp), ("DATETIME", .timestamp), ("BOOL", .boolean),
  ("BOOLEAN", .boolean)]

/-- A code, or a name that is the numeral of one. -/
def snowflakeType? : NativeType → Option DataType
  | .code n => snowflakeCodes.lookup n
  | .named name => (Numeral.int64? (Text.trim name)).bind fun n => snowflakeCodes.lookup n

def duckDbType? : NativeType → Option DataType
  | .code _ => none
  | .named name =>
    let name := Text.upper (Text.trim name)
    (duckDbNames.lookup name).or
      ((duckDbFamilies.find? fun f => Text.startsWith name f.1).map (·.2))

def postgresType? (reported : NativeType) : Option DataType := do
  let name ←
    match reported with
    | .code n => postgresCodes.lookup n
    | .named name => some (Text.lower (Text.trim name))
  (postgresNames.lookup name).or ((postgresPieces.find? fun f => Text.contains name f.1).map (·.2))

/-- Of a name with dots only the last part counts. -/
def bigQueryType? : NativeType → Option DataType
  | .code _ => none
  | .named name => do
    bigQueryNames.lookup (← (Text.split '.' (Text.upper (Text.trim name))).getLast?)

def dataType? : Warehouse → NativeType → Option DataType
  | .snowflake => snowflakeType?
  | .duckDb => duckDbType?
  | .postgres => postgresType?
  | .bigQuery => bigQueryType?

end Warehouse

end EventQuery
