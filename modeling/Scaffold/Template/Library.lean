import Scaffold.Template.Render

/-!
The templates of all generated files and messages.
-/

namespace Scaffold.Template

/-- The controller of an app: its state, and the action that fills it by a query. -/
def controller : Template :=
  ["import Lokka from 'lokka'",
   "import Transport from 'lokka-transport-http'",
   "import tree from 'universal-tree'",
   "import Index from '../views'",
   "",
   "const api = new Lokka(\x7b",
   .line [
      "  transport: new Transport(process.env.", .slot "app_url_env_var" .plain, " + '/api/",
        .slot "module_name" .plain, "')"],
   "\x7d)",
   "",
   "export const state = tree(\x7b",
   .line ["  ", .slot "module_name" .plain, ": \x7b\x7d"],
   "\x7d)",
   "",
   "export const index = async (ctx) => \x7b",
   .line ["  const \x7b ", .slot "module_name" .plain, " \x7d = await ctx.bootstrap(() =>"],
   .line ["    api.query('", .slot "query" .plain, "')"],
   "  )",
   .line ["  state.set('", .slot "module_name" .plain, "', ", .slot "module_name" .plain, ")"],
   "  ctx.render(\x7b body: Index \x7d)",
   "\x7d"]

/-- The model of an app. -/
def model : Template :=
  [.line ["import \x7b ", .slot "model_imports" (.joined ", "), " \x7d from 'joiql-mongo'"],
   "",
   .line ["export default model('", .slot "module_name" .plain, "', \x7b"],
   .optional "field_declarations" ["  ", .slot "field_declarations" .plain],
   "\x7d)"]

/-- The view of an app. -/
def view : Template :=
  ["import veact from 'veact'",
   "import \x7b state \x7d from '../controllers'",
   "",
   "const view = veact()",
   "",
   "const \x7b div \x7d = view.els()",
   "",
   "view.render(() =>",
   .line ["  div(", .slot "view_body" .plain, ")"],
   ")",
   "",
   "export default view()"]

/-- The rule that takes the margins and fonts of browsers away. -/
def resetMargins : Template :=
  ["html, body, div, span, applet, object, iframe,",
   "h1, h2, h3, h4, h5, h6, p, blockquote, pre,",
   "a, abbr, acronym, address, big, cite, code,",
   "del, dfn, em, img, ins, kbd, q, s, samp,",
   "small, strike, strong, sub, sup, tt, var,",
   "b, u, i, center,",
   "dl, dt, dd, ol, ul, li,",
   "fieldset, form, label, legend,",
   "table, caption, tbody, tfoot, thead, tr, th, td,",
   "article, aside, canvas, details, embed,",
   "figure, figcaption, footer, header, hgroup,",
   "menu, nav, output, ruby, section, summary,",
   "time, mark, audio, video \x7b",
   "  margin: 0;",
   "  padding: 0;",
   "  border: 0;",
   "  font-size: 100%;",
   "  font: inherit;",
   "  vertical-align: baseline;",
   "\x7d"]

/-- The rules for display, lists, quotations, tables and smoothing. -/
def resetDisplay : Template :=
  ["/* HTML5 display-role reset for older browsers */",
   "article, aside, details, figcaption, figure,",
   "footer, header, hgroup, menu, nav, section \x7b",
   "  display: block;",
   "\x7d",
   "body \x7b",
   "  line-height: 1;",
   "\x7d",
   "ol, ul \x7b",
   "  list-style: none;",
   "\x7d",
   "blockquote, q \x7b",
   "  quotes: none;",
   "\x7d",
   "blockquote:before, blockquote:after,",
   "q:before, q:after \x7b",
   "  content: '';",
   "  content: none;",
   "\x7d",
   "table \x7b",
   "  border-collapse: collapse;",
   "  border-spacing: 0;",
   "\x7d",
   "* \x7b",
   "  box-sizing: border-box;",
   "  -webkit-font-smoothing: antialiased;",
   "  -moz-osx-font-smoothing: grayscale;"]

/-- The view with the style sheet of an app. -/
def head : Template :=
  (["import veact from 'veact'", "", "const reset = `"] : Template) ++
  resetMargins ++ resetDisplay ++
  (["\x7d`",
    "const view = veact()",
    "const \x7b style \x7d = view.els()",
    "",
    "view.render(() => style(\x7b dangerouslySetInnerHTML: \x7b __html: reset \x7d \x7d))",
    "",
    "export default view()"] : Template)

/-- The router of an app. -/
def router : Template :=
  ["import unikoa from 'unikoa'",
   "import bootstrap from 'unikoa-bootstrap'",
   "import render from 'unikoa-react-render'",
   "import \x7b index, state \x7d from './controllers'",
   "import Head from './views/head'",
   "",
   "const router = unikoa()",
   "",
   "router.use(bootstrap)",
   "router.use(render(\x7b",
   "  head: Head,",
   "  subscribe: (cb) => state.on('update', cb)",
   "\x7d))",
   .line ["router.get('/", .slot "module_name" .plain, "/:id', index)"],
   "",
   "export default router"]

/-- The entry point of an app in the browser. -/
def client : Template :=
  ["import router from './router'",
   "",
   "router.routes()"]

/-- The entry point of an app on the server. -/
def server : Template :=
  ["import Koa from 'koa'",
   "import \x7b graphqlize \x7d from 'joiql-mongo'",
   "import router from './router'",
   "import * as models from './models'",
   "",
   "const app = new Koa()",
   "",
   .line ["router.all('/api/", .slot "module_name" .plain, "', graphqlize(models))"],
   "app.use(router.routes())",
   "",
   "export default app"]

/-- The file that starts an app and says which of its files are watched. -/
def appIndex : Template :=
  ["const \x7b connect \x7d = require('joiql-mongo')",
   "const hotglue = require('hotglue')",
   "const babelify = require('babelify')",
   "const envify = require('envify')",
   "",
   "const app = module.exports = hotglue(\x7b",
   "  relative: __dirname,",
   "  server: \x7b",
   "    main: 'server.js',",
   "    watch: [",
   .each "server_watch" ["      '", .value .plain, "'", .comma],
   "    ]",
   "  \x7d,",
   "  client: \x7b",
   "    main: 'client.js',",
   "    transforms: [babelify, envify],",
   "    watch: [",
   .each "client_watch" ["      '", .value .plain, "'", .comma],
   "    ]",
   "  \x7d",
   "\x7d)",
   "",
   "if (require.main === module) \x7b",
   .line ["  connect('", .slot "mongo_url" .plain, "')"],
   "  app.listen(process.env.PORT)",
   "  console.log('Listening on ' + process.env.PORT)",
   "\x7d"]

/-- The manifest of a project. -/
def manifest : Template :=
  ["\x7b",
   .line ["  \"name\": ", .slot "project_name" .json, ","],
   "  \"version\": \"0.0.1\",",
   "  \"private\": true,",
   "  \"scripts\": \x7b",
   .eachEntry "scripts" ["    ", .key .json, ": ", .value .json, .comma],
   "  \x7d,",
   "  \"babel\": \x7b",
   "    \"presets\": [",
   .each "babel_presets" ["      ", .value .json, .comma],
   "    ],",
   "    \"plugins\": [",
   .each "babel_plugins" ["      ", .value .json, .comma],
   "    ]",
   "  \x7d,",
   "  \"dependencies\": \x7b",
   .eachEntry "dependencies" ["    ", .key .json, ": ", .value .json, .comma],
   "  \x7d",
   "\x7d"]

/-- The environment file of a project. -/
def environmentFile : Template :=
  [.eachEntry "env" [.key .plain, "=", .value .plain]]

/-- The file that starts a project. -/
def projectIndex : Template :=
  ["import \x7b connect \x7d from 'joiql-mongo'",
   "import Koa from 'koa'",
   .line [
      "// import ", .slot "example_app" .camelCase, " from './", .slot "apps_dir" .plain, "/",
        .slot "example_app" .plain, "'"],
   "",
   "const app = new Koa()",
   "const \x7b PORT, MONGO_URL \x7d = process.env",
   "",
   "// Mount apps",
   .line ["// app.use(...", .slot "example_app" .camelCase, ".middleware)"],
   "",
   "// Connect to Mongo and start server",
   "connect(MONGO_URL)",
   "app.listen(PORT)",
   "console.log('Listening on ' + PORT)"]

/-- What to do after an app was created. -/
def appMessage : Template :=
  [.line ["Done. Mount the ", .slot "module_name" .plain, " app in the project's index.js file:"],
   "",
   .line [
      "  import ", .slot "module_name" .camelCase, " from './", .slot "apps_dir" .plain, "/",
        .slot "module_name" .plain, "'"],
   "",
   "  // ...",
   "",
   "  // Mount apps",
   .line ["  app.use(...", .slot "module_name" .camelCase, ".middleware)"]]

/-- What to do after a project was created. -/
def projectMessage : Template :=
  ["install dependencies:",
   .line ["  $ cd ", .slot "location" .plain, " && npm install"],
   "",
   "generate a sub-app:",
   .line [
      "  $ mural app ", .slot "example_app" .plain, " ", .slot "example_attributes" (.joined " ")],
   "",
   "start the server and database:",
   "  $ npm start"]

/-- The templates by their names. -/
def library : List (Text × Template) :=
  [("app/controllers/index.js.j2", controller),
   ("app/models/index.js.j2", model),
   ("app/views/index.js.j2", view),
   ("app/views/head.js.j2", head),
   ("app/router.js.j2", router),
   ("app/client.js.j2", client),
   ("app/server.js.j2", server),
   ("app/index.js.j2", appIndex),
   ("project/package.json.j2", manifest),
   ("project/env.j2", environmentFile),
   ("project/index.js.j2", projectIndex),
   ("messages/app.txt.j2", appMessage),
   ("messages/project.txt.j2", projectMessage)]

/-- A name without its empty and `.` components; a name with a `..` component has none. -/
def components? (name : Text) : Option (List Text) :=
  let parts := Text.cut (· = '/') name
  if parts.contains ['.', '.'] then none
  else some (parts.filter fun part => part ≠ [] ∧ part ≠ ['.'])

/-- The template of a name. -/
def find? (name : Text) : Option Template := do
  library.lookup (Text.join ['/'] (← components? name))

/-- The text of the template with a name. -/
def renderNamed (name : Text) (context : Context) : Except RenderError Text :=
  match find? name with
  | some template => template.render context
  | none => .error (.unknownTemplate name)

end Scaffold.Template
