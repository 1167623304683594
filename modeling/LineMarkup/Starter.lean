import LineMarkup.Settings.Reader

/-!
Texts to start from: settings files that hold the defaults, and a page template.
-/

namespace LineMarkup.Starter

set_option autoImplicit false

/-- Each line with a newline after it. -/
def ofLines (lines : List String) : Text := lines.flatMap fun l => l.toList ++ ['\n']

def tomlSettings : Text := ofLines [
  "# hbhd configuration file",
  "",
  "# Directory converted files are written to. When unset, each output file is",
  "# written next to its source.",
  "# output_dir = \"build\"",
  "",
  "# Extension given to converted files",
  "output_extension = \"html\"",
  "",
  "# String used to join converted lines into the \x7b\x7bcontent\x7d\x7d placeholder",
  "line_separator = \"\\n\"",
  "",
  "# Number of documents converted in parallel (defaults to number of CPU cores)",
  "# jobs = 4"]

def jsonSettings : Text := ofLines [
  "\x7b",
  "  \"output_extension\": \"html\",",
  "  \"line_separator\": \"\\n\"",
  "\x7d"]

def settingsText : SettingsFormat → Text
  | .json => jsonSettings
  | .toml => tomlSettings

/-- A format that no settings file has. -/
structure UnsupportedFormat where
  name : Text
deriving DecidableEq, Repr

def UnsupportedFormat.message (e : UnsupportedFormat) : String :=
  "Unsupported config format: " ++ String.ofList e.name

/-- The settings file in the format with a name. -/
def settingsFile (name : Text) : Except UnsupportedFormat Text :=
  match SettingsFormat.ofName? name with
  | some format => .ok (settingsText format)
  | none => .error ⟨name⟩

/-- A page with places for its title, its author and its content. -/
def page : Text := ofLines [
  "<!DOCTYPE html>",
  "<html lang=\"en\">",
  "  <head>",
  "    <meta charset=\"UTF-8\" />",
  "    <meta name=\"viewport\" content=\"width=device-width, initial-scale=1.0\" />",
  "    <meta name=\"author\" content=\"\x7b\x7bauthor\x7d\x7d\" />",
  "    <title>\x7b\x7btitle\x7d\x7d</title>",
  "    <style>",
  "      body \x7b",
  "        max-width: 42rem;",
  "        margin: 2rem auto;",
  "        padding: 0 1rem;",
  "        font-family: system-ui, sans-serif;",
  "        line-height: 1.6;",
  "      \x7d",
  "",
  "      code \x7b",
  "        padding: 0.1rem 0.3rem;",
  "        border-radius: 3px;",
  "        background: #f0f0f0;",
  "      \x7d",
  "    </style>",
  "  </head>",
  "  <body>",
  "    <main>",
  "\x7b\x7bcontent\x7d\x7d",
  "    </main>",
  "    <footer>",
  "      <p>\x7b\x7bauthor\x7d\x7d</p>",
  "    </footer>",
  "  </body>",
  "</html>"]

/-- The templates to start from, by file name. -/
def templates : List (Text × Text) := [("base.html".toList, page)]

end LineMarkup.Starter
