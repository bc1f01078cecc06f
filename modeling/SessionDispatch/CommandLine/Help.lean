namespace SessionDispatch.CommandLine

def programName : String := "ikev2d"

def versionText : String := programName ++ " 0.1.0\n"

/-- Each flag as it is written, and what it does. -/
def flagHelp : List (String × String) := [
  ("-c, --config <CONFIG>", "Path to configuration file (TOML format) [default: ikev2d.toml]"),
  ("    --host4 <HOST4>", "IPv4 bind host (overrides config file)"),
  ("    --host6 <HOST6>", "IPv6 bind host (overrides config file)"),
  ("    --port <PORT>", "UDP port for both families (overrides config file)"),
  ("    --log-level <LOG_LEVEL>", "Log level (overrides config file)"),
  ("    --queue-order <QUEUE_ORDER>", "Queue discipline: fifo or lifo (overrides config file)"),
  ("    --session-timeout-ms <SESSION_TIMEOUT_MS>",
    "Session lifetime in milliseconds (overrides config file)"),
  ("    --validate", "Validate configuration and exit"),
  ("    --print-default-config", "Print default configuration and exit"),
  ("-h, --help", "Print help"),
  ("-V, --version", "Print version")]

def helpText : String :=
  "UDP session daemon\n\nUsage: " ++ programName ++ " [OPTIONS]\n\nOptions:\n" ++
    String.join (flagHelp.map fun (flag, text) => s!"  {flag}\n          {text}\n")

end SessionDispatch.CommandLine
