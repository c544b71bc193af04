/-
The settings file that a new project starts with.
-/
import DocScribe.Text.Lines

namespace DocScribe
namespace Command

/-- The lines of the sample settings. -/
def sampleLines : List String :=
  ["# dyc configuration",
    "#",
    "# Python files are supported out of the box. Add a [[formats]] entry to",
    "# support another extension, or to change how Python is documented.",
    "",
    "# Explicit list of files to document. When set, discovery is skipped.",
    "# file_list = [\"src/app.py\"]",
    "",
    "# Gitignore-style patterns excluded from discovery.",
    "[exclude]",
    "patterns = []",
    "",
    "# Extra glob patterns included in discovery.",
    "[include]",
    "patterns = []",
    "",
    "# [[formats]]",
    "# extension = \"js\"",
    "# language = \"javascript\"",
    "#",
    "# [formats.method]",
    "# indicator = \"function\"",
    "# end = \"\x7b\"",
    "# doc_open = \"/**\"",
    "# doc_close = \" */\"",
    "# doc_open_pattern = '/\\*\\*'",
    "# doc_close_pattern = '\\*/'",
    "# before = true",
    "# indent_content = \" * \"",
    "# words_per_line = 10",
    "#",
    "# [formats.arguments]",
    "# prefix = \"@param\"",
    "# ignore = []"]

/-- The sample settings. -/
def sampleSettings : Text := sampleLines.flatMap fun line => line.toList ++ ['\n']

end Command
end DocScribe
