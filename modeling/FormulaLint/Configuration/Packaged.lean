import FormulaLint.Value

/-! The configuration that every audit starts from. Documents of the user are layered on top of it.
-/

namespace FormulaLint.Packaged

def texts (items : List String) : Value :=
  .list (items.map Value.text)

def table (rows : List (String × Value)) : Value :=
  .mapping (rows.map fun row => (.text row.1, row.2))

/-- The tables. Under a path shortcut, the first pattern that matches is taken, so the most specific
ones come first; its group names the helper to use instead. -/
def tables : Entries := [
  (.text "deprecated_dependencies", table [
    ("automake", .text "automake"),
    ("autoconf", .text "autoconf"),
    ("libtool", .text "libtool"),
    ("apr", .text "apr-util"),
    ("tex", .null)]),
  (.text "template_comments", texts [
    "# PLEASE REMOVE", "# Documentation:",
    "# if this fails, try separate make/make install steps", "# The URL of the archive",
    "## Naming --", "# if your formula requires any X11/XQuartz components",
    "# if your formula fails when building in parallel",
    "# Remove unrecognized options if warned by configure",
    "# system \"cmake\", \".\", *std_cmake_args"]),
  (.text "fileutils_methods", texts [
    "cd", "chmod", "chmod_R", "chown", "chown_R", "cmp", "compare_file", "copy", "copy_entry",
    "copy_file", "cp", "cp_r", "install", "link", "ln", "ln_s", "ln_sf", "makedirs", "mkdir",
    "mkdir_p", "mkpath", "move", "mv", "remove", "remove_dir", "remove_entry", "remove_file",
    "rm", "rm_f", "rm_r", "rm_rf", "rmdir", "rmtree", "symlink", "touch"]),
  (.text "compilers", table [
    ("cc", texts ["gcc", "llvm-gcc", "clang"]),
    ("cxx", texts ["g++", "llvm-g++", "clang++"])]),
  (.text "path_shortcuts", table [
    ("prefix", texts [
      "^/share/man/(?P<shortcut>man[1-8])",
      "^/share/(?P<shortcut>info|man)(?=/|$)",
      "^/(?P<shortcut>bin|include|libexec|lib|sbin|share|Frameworks)\\b"]),
    ("share", texts [
      "^/(?P<shortcut>man|info)(?=/|$)"])]),
  (.text "vendored_languages", texts [
    "lua", "perl", "python", "ruby"]),
  (.text "environment_commands", texts [
    "export", "env"]),
  (.text "dependency_tags", texts [
    "build", "optional", "recommended", "run", "test", "linked"]),
  (.text "legacy_macos_checks", texts [
    "leopard?", "snow_leopard?", "lion?", "mountain_lion?"]),
  (.text "deprecated_env_methods", table [
    ("x11", .text "Use \"depends_on :x11\" instead of \"ENV.x11\""),
    ("fortran", .text "Use `depends_on :fortran` instead of `ENV.fortran`")]),
  (.text "deprecated_constants", table [
    ("MACOS_VERSION", .text "MacOS.version")])]

/-- Formulae that may keep a construct, and rules that concern some paths only. -/
def policy : Entries := [
  (.text "exemptions", .list [
    table [("rules", .text "Miscellaneous/UniversalBinary"), ("class_name", .text "Wine")],
    table [("rules", .text "Miscellaneous/UniversalBinary"), ("path", .text "/wine\\.rb$")],
    table [("rules", .text "Miscellaneous/InstallNameTool"), ("class_name", .text "Cctools")],
    table [("rules", .text "Miscellaneous/InstallNameTool"), ("path", .text "/cctools\\.rb$")],
    table [("rules", .text "Miscellaneous/NpmInstallArgs"),
      ("class_name", .text "Kibana(AT\\d+)?")],
    table [("rules", .text "Miscellaneous/NpmInstallArgs"),
      ("path", .text "/kibana(@\\d+(\\.\\d+)?)?\\.rb$")]]),
  (.text "restrictions", .list [
    table [("rules", .text "Miscellaneous/LinuxCheck"), ("path", .text "/homebrew-core/")]])]

end FormulaLint.Packaged
