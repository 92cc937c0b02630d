import ServerFleet.Registry.Basic

/-!
The servers that are known without any configuration.
-/

namespace ServerFleet.Registry

/-- A known server whose patterns are plain names. -/
def builtinSketch (id name program : String) (arguments extensions roots excludes
    install : List String) : ServerSketch where
  id
  name
  extensions
  rootPatterns := roots
  excludePatterns := excludes
  installable := !install.isEmpty
  initialization := none
  launcher := .command ⟨program, arguments, [], install⟩

def builtinSketches : List ServerSketch := [
  builtinSketch "deno" "Deno" "deno" ["lsp"]
    [".ts", ".tsx", ".js", ".jsx", ".mjs"] ["deno.json", "deno.jsonc"] [] [],
  builtinSketch "typescript" "TypeScript" "typescript-language-server" ["--stdio"]
    [".ts", ".tsx", ".js", ".jsx", ".mjs", ".cjs", ".mts", ".cts"]
    ["package-lock.json", "bun.lockb", "bun.lock", "pnpm-lock.yaml", "yarn.lock", "package.json"]
    ["deno.json", "deno.jsonc"]
    ["npm", "install", "-g", "typescript", "typescript-language-server"],
  builtinSketch "rust-analyzer" "rust-analyzer" "rust-analyzer" []
    [".rs"] ["Cargo.toml"] [] ["rustup", "component", "add", "rust-analyzer"],
  builtinSketch "gopls" "gopls" "gopls" []
    [".go"] ["go.work", "go.mod", "go.sum"] []
    ["go", "install", "golang.org/x/tools/gopls@latest"],
  builtinSketch "pyright" "Pyright" "pyright-langserver" ["--stdio"]
    [".py", ".pyi"]
    ["pyproject.toml", "setup.py", "setup.cfg", "requirements.txt", "Pipfile",
      "pyrightconfig.json"] []
    ["npm", "install", "-g", "pyright"],
  builtinSketch "clangd" "clangd" "clangd" ["--background-index"]
    [".c", ".cc", ".cpp", ".cxx", ".h", ".hh", ".hpp", ".hxx"]
    ["compile_commands.json", "compile_flags.txt", ".clangd", "CMakeLists.txt", "Makefile"] []
    [],
  builtinSketch "bash" "Bash" "bash-language-server" ["start"]
    [".sh", ".bash"] [] [] ["npm", "install", "-g", "bash-language-server"]]

/-- Registers sketches one after another, up to the first that is refused. -/
def registerAll (r : Registry) : List ServerSketch → Except RegistryError Registry
  | [] => .ok r
  | s :: rest => do
    let r' ← r.register (← ServerDefinition.ofSketch s)
    r'.registerAll rest

def builtin : Except RegistryError Registry := empty.registerAll builtinSketches

end ServerFleet.Registry
