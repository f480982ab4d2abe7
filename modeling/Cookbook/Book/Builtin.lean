import Cookbook.Book.Basic

/-!
# The built-in book

Without a recipe file the recipes of the Flutter bridge generator are used:
build the generator, generate the bindings of both examples, and format the
generated files.
-/

namespace Cookbook.Book

/-- The variables of the built-in book. -/
def builtinVariables : List (String × String) :=
  [ ("frb_bin", "frb_codegen/target/debug/flutter_rust_bridge_codegen"),
    ("frb_pure", "frb_example/pure_dart"),
    ("frb_flutter", "frb_example/with_flutter"),
    ("line_length", "120") ]

/-- The recipes of the built-in book. -/
def builtinRecipes : List Recipe :=
  [ { name := "default", needs := ["gen-bridge", "lint"] },
    { name := "build",
      steps :=
        [ { line := "cd frb_codegen" },
          { line := "cargo build", directory := some "frb_codegen" } ],
      aliases := ["b"],
      doc := some "Build the code generator" },
    { name := "gen-bridge",
      steps :=
        [ { line :=
              "\x7b\x7bfrb_bin\x7d\x7d -r \x7b\x7bfrb_pure\x7d\x7d/rust/src/api.rs" ++
              " -d \x7b\x7bfrb_pure\x7d\x7d/dart/lib/bridge_generated.dart" },
          { line :=
              "\x7b\x7bfrb_bin\x7d\x7d -r \x7b\x7bfrb_flutter\x7d\x7d/rust/src/api.rs" ++
              " -d \x7b\x7bfrb_flutter\x7d\x7d/lib/bridge_generated.dart" } ],
      needs := ["build"],
      aliases := ["g"],
      doc := some "Generate the Dart bindings for both examples" },
    { name := "lint",
      steps :=
        [ { line :=
              "dart format --fix -l \x7b\x7bline_length\x7d\x7d" ++
              " \x7b\x7bfrb_pure\x7d\x7d/dart/lib/bridge_generated.dart" },
          { line :=
              "dart format --fix -l \x7b\x7bline_length\x7d\x7d" ++
              " \x7b\x7bfrb_flutter\x7d\x7d/lib/bridge_generated.dart" } ],
      aliases := ["l"],
      doc := some "Format the generated Dart files" } ]

/-- The built-in book. -/
def builtin : Book where
  bindings := ⟨builtinVariables, by decide⟩
  catalog := ⟨builtinRecipes, by decide⟩
  default := none
  source := "<builtin:bridge>"

end Cookbook.Book
