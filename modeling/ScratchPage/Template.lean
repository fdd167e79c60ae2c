/-!
# Templates

A page is a template in which every marker has been replaced by the code. The code is put in as it is:
a marker that only appears through the replacement is left alone.
-/

namespace ScratchPage.Template
set_option autoImplicit false

/-- The place of the code in a template. -/
def marker : List Char := "##code##".toList

/-- Replaces the markers from left to right; the first `skip` characters belong to a marker that has
been replaced. -/
def fill (code : List Char) : Nat → List Char → List Char
  | _, [] => []
  | skip + 1, _ :: rest => fill code skip rest
  | 0, c :: rest =>
    if marker.isPrefixOf (c :: rest) then code ++ fill code (marker.length - 1) rest
    else c :: fill code 0 rest

/-- The page for a template and its code. -/
def render (template code : String) : String := String.ofList (fill code.toList 0 template.toList)

/-- The page around the code when no other template is given. -/
def standard : String :=
  "\n".intercalate
  ["<!DOCTYPE html>",
   "<html>",
   "<head>",
   "    <meta charset=\"utf-8\">",
   "    <title>Scratch project</title>",
   "    <style>",
   "        body \x7b margin: 0; background: #000; \x7d",
   "        canvas \x7b display: block; margin: 0 auto; \x7d",
   "    </style>",
   "</head>",
   "<body>",
   "    <canvas id=\"stage\" width=\"480\" height=\"360\"></canvas>",
   "    <script src=\"runtime.js\"></script>",
   "    <script>",
   "        (async function() \x7b",
   "            const targets = [];",
   "##code##",
   "            await startProject(targets);",
   "        \x7d)();",
   "    </script>",
   "</body>",
   "</html>",
   ""]

end ScratchPage.Template
