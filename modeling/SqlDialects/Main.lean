import SqlDialects.Report

/-! # The command line -/

/-- The variables of settings that a process can have. Others are not looked at. -/
def settingNames : List String :=
  ["PRODUCT", "VERSION", "PLACEHOLDER_STYLE", "BIND_MODE", "QUOTE_IDENTIFIERS", "COLUMN_TYPES",
    "FUNCTIONS", "CAPABILITIES"] ++
    SqlDialects.Capability.all.map fun c => "CAPABILITIES__" ++ c.name.toUpper

def settingVariables : IO (List (String × String)) := do
  let names := settingNames.map ("ORMDIALECT__" ++ ·)
  let values ← names.mapM fun name => do
    return (← IO.getEnv name).map fun value => (name, value)
  return values.flatMap Option.toList

def main (arguments : List String) : IO UInt32 := do
  let report := SqlDialects.Report.run arguments (← settingVariables)
  report.output.forM IO.println
  report.errors.forM IO.eprintln
  return report.exitCode.toUInt32
