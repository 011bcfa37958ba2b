/-
# A settings file to start from

Every setting with a word about it, and all of them left open.
-/

import DependencyUse.Settings.Basic

namespace DependencyUse
namespace Settings

/-- The lines of the file. -/
def templateLines : List String :=
  [ "# Reachability configuration",
    "#",
    "# Settings here are overridden by REACHABILITY_* environment variables,",
    "# which are in turn overridden by command-line flags.",
    "",
    "# Directory containing the project sources",
    "# source_dir = \".\"",
    "",
    "# JSON file with the components to classify. When unset, components are read",
    "# from package.json in the source directory.",
    "# components_file = \"components.json\"",
    "",
    "# Glob patterns for files and directories to skip, in addition to",
    "# node_modules, .git, dist, build, coverage, .next and out.",
    "# Patterns from .reachabilityignore in the source directory are added too.",
    "# ignore_patterns = [\"**/*.test.ts\", \"fixtures/**\"]",
    "",
    "# Maximum number of barrel files followed from one import",
    "# max_reexport_depth = 5",
    "",
    "# Number of files parsed in parallel",
    "# concurrency = 10",
    "",
    "# Stop scheduling new files after this many seconds; the result is partial",
    "# timeout_secs = 120",
    "",
    "# Which package.json dependency tables become components",
    "# include_dev_deps = true",
    "# include_peer_deps = true",
    "# include_optional_deps = true",
    "",
    "# Output format: \"text\" or \"json\"",
    "# output_format = \"text\"",
    "",
    "# Write results to a file instead of stdout",
    "# output_file = \"reachability.json\"",
    "",
    "# quiet = false",
    "# verbose = false",
    "# use_colors = true",
    "# show_progress = true" ]

/-- The text of the file. -/
def template : String :=
  Report.unlines templateLines

end Settings
end DependencyUse
