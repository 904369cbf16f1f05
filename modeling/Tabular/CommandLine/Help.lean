/-!
The texts that tell how to use the program.
-/
namespace Tabular.CommandLine

def version : String := "xsd2db 0.4.0\n"

def helpLines : List String :=
  ["Create a relational database from an XSD schema",
   "",
   "Usage: xsd2db [OPTIONS]",
   "",
   "Options:",
   "  -s, --schema <SCHEMA>          Schema file (.xsd is appended when no extension is given)",
   "  -t, --type <TYPE>              Database type: sql, jet or oledb",
   "  -l, --location <LOCATION>      Server host for sql, catalog directory for jet",
   "  -n, --name <NAME>              Database name (defaults to the name in the schema)",
   "  -o, --dbowner <OWNER>          Owner qualifier for tables [default: dbo]",
   "  -p, --tableprefix <PREFIX>     Prefix for table names",
   "  -e, --existing                 Create tables in an existing database",
   "  -f, --force                    Drop and recreate the database if it exists",
   "      --port <PORT>              Server port (sql)",
   "      --user <USER>              Login name (sql)",
   "      --password <PASSWORD>      Login password (sql)",
   "      --trust-server-cert        Trust the server certificate without validation (sql)",
   "  -c, --config <CONFIG>          Path to YAML configuration file",
   "      --script <FILE>            Write the DDL script to FILE ('-' for stdout) instead of" ++
     " connecting",
   "      --output-json              Output JSON result to stdout",
   "      --log-format <LOG_FORMAT>  Log format: text or json [default: text]",
   "      --verbosity <VERBOSITY>    Log verbosity: debug, info, warn, error [default: info]",
   "  -h, --help                     Print help",
   "  -V, --version                  Print version"]

def help : String := String.join (helpLines.map (· ++ "\n"))

end Tabular.CommandLine
