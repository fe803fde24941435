/-!
The texts that explain how the command is used.
-/

namespace DotHttp.CommandLine

def usage : String := "Usage: httprunner [OPTIONS] [FILES]..."

def usageHint : String := "Try 'httprunner --help' for help."

/-- The lines of the help text, at eighty columns. -/
def helpLines : List String := [
  usage,
  "",
  "  httprunner - run .http request files.",
  "",
  "  Executes the requests in each FILE in order, chaining data between them, and",
  "  exits non-zero when any request fails or the run is interrupted.",
  "",
  "  REQUEST FILES",
  "  ─────────────",
  "    @host = https://api.example.com",
  "",
  "    # @name login   POST \x7b\x7bhost\x7d\x7d/login   Content-Type: application/json",
  "",
  "    \x7b\"user\": \"admin\"\x7d",
  "",
  "    EXPECTED_RESPONSE_STATUS 200",
  "",
  "    ###   # @dependsOn login   GET \x7b\x7bhost\x7d\x7d/me   Authorization: Bearer",
  "    \x7b\x7blogin.response.body.$.token\x7d\x7d",
  "",
  "  DIRECTIVES",
  "  ──────────",
  "    # @name NAME                      Name the request for later references",
  "    # @dependsOn NAME                 Run only if NAME succeeded",
  "    # @if NAME.response.status 200    Run only if the condition holds",
  "    # @if NAME.response.body.$.a.b V  JSON path condition",
  "    # @if-not ...                     Negated condition",
  "    # @timeout 30 / 500ms / 2m        Read timeout (bare number = seconds)",
  "    # @connection-timeout 10          Connect timeout",
  "    # @pre-delay 250 / @post-delay 250  Sleep (ms) around the request",
  "",
  "  PLACEHOLDERS",
  "  ────────────",
  "    \x7b\x7bvar\x7d\x7d                              File (@var = ...) or environment variable",
  "    \x7b\x7bNAME.response.body.$.path\x7d\x7d        Value from an earlier response body",
  "    \x7b\x7bNAME.response.headers.Header\x7d\x7d     Header of an earlier response",
  "    \x7b\x7bNAME.request.body.*\x7d\x7d              Whole body of an earlier request",
  "    guid() string() number() email() getdate() lorem_ipsum(5) upper('x') ...",
  "",
  "  ENVIRONMENTS",
  "  ────────────",
  "    --env NAME selects a section of the nearest http-client.env.json,",
  "    searched from the request file's directory upward.",
  "",
  "  CONFIG",
  "  ──────",
  "    .httprunner.yaml in CWD, then ~/.httprunner/config.yaml:",
  "",
  "        defaults:",
  "          environment: dev",
  "          delay: 100",
  "          timeout: 30",
  "          env_file: .env",
  "          log_file: $\x7bHOME\x7d/httprunner.log",
  "",
  "    CLI flags override config defaults.",
  "",
  "Options:",
  "  -c, --config TEXT          Config file path. Default: .httprunner.yaml in CWD,",
  "                             then ~/.httprunner/config.yaml.",
  "  --env TEXT                 Environment name from http-client.env.json.",
  "  --insecure                 Skip TLS certificate verification.",
  "  -v, --verbose              Show response headers and bodies, condition details",
  "                             and debug logs.",
  "  --pretty-json              Pretty-print JSON response bodies in verbose",
  "                             output.",
  "  --log FILE                 Also write logs to FILE.",
  "  --delay MS                 Delay between requests in milliseconds.  [x>=0]",
  "  --timeout TEXT             Default read timeout for requests without @timeout",
  "                             (e.g. 30, 500ms, 2m).",
  "  --connection-timeout TEXT  Default connect timeout for requests without",
  "                             @connection-timeout.",
  "  --discover                 Recursively find and run all .http files under CWD.",
  "  --jobs INTEGER RANGE       Number of files to run in parallel. Default: 1.",
  "                             [x>=1]",
  "  --export DIR               Write results as JSON to",
  "                             DIR/httprunner_results_<timestamp>.json.",
  "  --help                     Show this message and exit."]

def help : String := "\n".intercalate helpLines

end DotHttp.CommandLine
