import LicenseSurvey.Language.Basic

/-! # Known languages

The registry lists every language together with its extensions, its file names
and its markers. Its order decides only in which order the candidates of an
ambiguous file are named.
-/

namespace LicenseSurvey.Language

def row (name : String) (extensions fileNames : List String) (line : Option String)
    (block : Option (String × String)) (quotes : List Quote) : Language where
  name := name.toList
  extensions := extensions.map String.toList
  fileNames := fileNames.map String.toList
  markers :=
    { line := line.map String.toList
      block := block.map fun pair => ⟨pair.1.toList, pair.2.toList⟩
      singleQuote := quotes.contains .single
      doubleQuote := quotes.contains .double
      backtick := quotes.contains .backtick }

def slashComments (name : String) (extensions : List String) (quotes : List Quote) :
    Language :=
  row name extensions [] (some "//") (some ("/*", "*/")) quotes

def hashComments (name : String) (extensions fileNames : List String) : Language :=
  row name extensions fileNames (some "#") none [.single, .double]

def markup (name : String) (extensions : List String) : Language :=
  row name extensions [] none (some ("<!--", "-->")) []

def registry : List Language :=
  [ slashComments "C" ["c", "h"] [.single, .double],
    slashComments "C++" ["cpp", "cc", "cxx", "hpp", "hh", "hxx", "ino"] [.single, .double],
    slashComments "C#" ["cs"] [.single, .double],
    slashComments "Java" ["java"] [.single, .double],
    slashComments "JavaScript" ["js", "mjs", "cjs", "jsx"] [.single, .double, .backtick],
    slashComments "TypeScript" ["ts", "mts", "cts", "tsx"] [.single, .double, .backtick],
    slashComments "Go" ["go"] [.single, .double, .backtick],
    slashComments "Kotlin" ["kt", "kts"] [.single, .double],
    slashComments "Scala" ["scala", "sc"] [.single, .double],
    slashComments "Swift" ["swift"] [.double],
    slashComments "Dart" ["dart"] [.single, .double],
    slashComments "Groovy" ["groovy", "gradle"] [.single, .double],
    slashComments "PHP" ["php"] [.single, .double],
    slashComments "Objective-C" ["m", "mm"] [.single, .double],
    -- A single quote mark also names a lifetime, so it does not quote.
    slashComments "Rust" ["rs"] [.double],
    slashComments "Zig" ["zig"] [.single, .double],
    slashComments "Protocol Buffers" ["proto"] [.single, .double],
    row "CSS" ["css"] []
      none (some ("/*", "*/")) [.single, .double],
    slashComments "SCSS" ["scss", "less"] [.single, .double],
    hashComments "Python" ["py", "pyi", "pyx"] ["SConstruct", "SConscript"],
    hashComments "Shell" ["sh", "bash", "zsh", "ksh", "fish"] [".bashrc", ".profile"],
    hashComments "Ruby" ["rb", "rake", "gemspec"] ["Gemfile", "Rakefile"],
    hashComments "Perl" ["pl", "pm", "t"] [],
    hashComments "R" ["r"] [],
    hashComments "Elixir" ["ex", "exs"] [],
    hashComments "Nim" ["nim"] [],
    hashComments "PowerShell" ["ps1", "psm1"] [],
    row "Nix" ["nix"] []
      (some "#") (some ("/*", "*/")) [.double],
    -- The line marker comes first, so a block marker starts a line comment.
    row "Julia" ["jl"] []
      (some "#") (some ("#=", "=#")) [.double],
    row "YAML" ["yml", "yaml"] [".clang-format", ".clang-tidy"]
      (some "#") none [],
    row "TOML" ["toml"] ["Cargo.lock", "Pipfile"]
      (some "#") none [.single, .double],
    row "Config" ["cfg", "conf", "properties"]
      [".gitignore", ".gitattributes", ".gitmodules", ".dockerignore", ".editorconfig",
        "requirements.txt"]
      (some "#") none [],
    row "INI" ["ini"] []
      (some ";") none [],
    row "Makefile" ["mk", "mak"] ["Makefile", "GNUmakefile", "makefile"]
      (some "#") none [],
    row "Dockerfile" ["dockerfile"] ["Dockerfile", "Containerfile"]
      (some "#") none [],
    row "CMake" ["cmake"] ["CMakeLists.txt"]
      (some "#") none [.double],
    row "Prolog" ["pl", "pro"] []
      (some "%") (some ("/*", "*/")) [.single, .double],
    row "MATLAB" ["m"] []
      (some "%") (some ("%\x7b", "%\x7d")) [.double],
    row "TeX" ["tex", "sty", "cls", "bib"] []
      (some "%") none [],
    row "Erlang" ["erl", "hrl"] ["rebar.config"]
      (some "%") none [.single, .double],
    -- Here too the line marker hides the block marker.
    row "Lua" ["lua"] []
      (some "--") (some ("--[[", "]]")) [.single, .double],
    row "SQL" ["sql"] []
      (some "--") (some ("/*", "*/")) [.single, .double],
    row "Haskell" ["hs", "lhs"] []
      (some "--") (some ("\x7b-", "-\x7d")) [.double],
    row "Lisp" ["lisp", "el", "scm", "clj", "cljs", "edn"] []
      (some ";") none [.double],
    row "Fortran" ["f90", "f95", "f03", "f08"] []
      (some "!") none [.single, .double],
    row "VHDL" ["vhd", "vhdl"] []
      (some "--") none [.double],
    markup "HTML" ["html", "htm", "xhtml", "vue", "svelte"],
    markup "XML" ["xml", "xsd", "xsl", "xslt", "svg", "plist", "csproj", "pom"],
    markup "Markdown" ["md", "markdown"] ]

end LicenseSurvey.Language
