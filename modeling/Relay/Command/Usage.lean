import Relay.Command.Flag

/-!
# Usage and help

The texts that tell how the program is called.
-/

namespace Relay.Command

/-- How the program is called. -/
def usage : String :=
  "usage: mwflow [-h] \x7banalyze\x7d ...\n"

/-- How the analysis is called. -/
def analysisUsage : String :=
  "usage: mwflow analyze [-h] [--workspace WORKSPACE] --name NAME
                      (--middleware MIDDLEWARE | --endpoint ENDPOINT)
                      [--config CONFIG] [--max-depth MAX_DEPTH]
                      [--format \x7bjson,human,mermaid,summary\x7d]
                      [--expand NODE_ID] [--output FORMAT PATH] [-v]\n"

/-- Help about the program. -/
def help : String :=
  usage ++ "
Middleware data-flow analyzer

positional arguments:
  \x7banalyze\x7d
    analyze   Analyze one endpoint's middleware chain

options:
  -h, --help  show this help message and exit\n"

/-- Help about the analysis. -/
def analysisHelp : String :=
  analysisUsage ++ "
options:
  -h, --help            show this help message and exit
  --workspace WORKSPACE
                        Workspace root holding agl-<name>-middleware (defaults
                        to cwd)
  --name NAME           Middleware package short name, e.g. 'content' for agl-
                        content-middleware
  --middleware MIDDLEWARE
                        Middleware specifier relative to the middleware root
                        (repeatable, in order)
  --endpoint ENDPOINT   JSON file holding one endpoint descriptor
  --config CONFIG       Path to configuration file (.mwflowrc.json by default)
  --max-depth MAX_DEPTH
                        Override the component recursion ceiling
  --format \x7bjson,human,mermaid,summary\x7d
                        Report format(s) to emit (default: json)
  --expand NODE_ID      Diagram node to expand (e.g. MW1_c0) or
                        MW<i>_collapsed to fold a middleware
  --output FORMAT PATH  Write report to file (e.g., --output mermaid flow.mmd)
  -v, --verbose         Enable debug logging\n"

/-- What is said when a command line is refused. -/
def refusalText (r : Refusal) : String :=
  usage ++ s!"mwflow: error: {r.message}\n"

/-- What is said when the arguments of the analysis are refused. -/
def analysisRefusalText (r : Refusal) : String :=
  analysisUsage ++ s!"mwflow analyze: error: {r.message}\n"

end Relay.Command
